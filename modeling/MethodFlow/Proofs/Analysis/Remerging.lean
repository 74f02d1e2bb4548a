import MethodFlow.Proofs.Analysis.FixedPoint
import MethodFlow.Proofs.Analysis.Heights

/-! Merging into a frame once more what it was merged from. The merged values have taken in both
frames, but a merge looks at the heights of the stacks first, and merging may have narrowed an
entry. -/

namespace MethodFlow

variable {V : Type} [AbstractValue V] {domain : Domain V}

namespace Frame

variable {upper lower first second merged : Frame V} {changed : Bool}

omit [AbstractValue V] in
theorem mergeValues_of_absorbs {uppers lowers : List V}
    (absorbs : List.Forall₂ domain.Absorbs uppers lowers) :
    mergeValues domain uppers lowers = .ok uppers := by
  induction absorbs with
  | nil => rfl
  | cons head _ ih => exact bind_eq_ok.mpr ⟨_, head, bind_eq_ok.mpr ⟨_, ih, rfl⟩⟩

/-- A frame stays as it is when a frame of its height that it absorbs is merged into it. -/
theorem Absorbs.merge (absorbs : upper.Absorbs domain lower)
    (slots : upper.stackSlots = lower.stackSlots) :
    upper.merge domain lower = .ok (upper, false) := by
  have lengths : upper.stackLength = lower.stackLength := by
    rw [stackLength, SlotVec.length_eq, stackLength, SlotVec.length_eq]
    exact absorbs.stack.length_eq
  rw [Frame.merge, if_neg (by simp [lengths, slots]), mergeValues_of_absorbs absorbs.locals,
    mergeValues_of_absorbs absorbs.stack]
  exact if_pos ⟨rfl, rfl⟩

/-- Frames whose stacks take different numbers of slots do not merge. -/
theorem merge_of_slots_ne (different : upper.stackSlots ≠ lower.stackSlots) :
    upper.merge domain lower =
      .error (.incompatibleStackHeights upper.stackSlots lower.stackSlots) := by
  rw [Frame.merge, if_pos (.inr different)]
  rfl

/-- What a merge of two frames yields, whatever their bounds and expected results are. -/
theorem Merged.of_placed (placed : first.stack.Placed) (placed' : second.stack.Placed)
    (locals : first.locals.length = second.locals.length)
    (succeeds : first.merge domain second = .ok (merged, changed)) :
    Merged domain ⟨first.locals.length, first.maxStack, first.returnValue⟩ first
      ⟨second.locals, second.stack, first.maxStack, first.returnValue⟩ merged changed :=
  .of_merge ⟨rfl, placed, rfl, rfl⟩ ⟨locals.symm, placed', rfl, rfl⟩ succeeds

/-- Merging either of two frames again into what they were merged to changes nothing, unless an
entry of the stack was narrowed: then neither can be merged again. -/
theorem merge_again (provided : domain.Provided) (placed : first.stack.Placed)
    (placed' : second.stack.Placed) (locals : first.locals.length = second.locals.length)
    (succeeds : first.merge domain second = .ok (merged, changed)) :
    ∀ again ∈ [first, second], merged.merge domain again =
      if merged.stackValues.map width = first.stackValues.map width then .ok (merged, false)
      else .error (.incompatibleStackHeights merged.stackSlots first.stackSlots) := by
  have result := Merged.of_placed placed placed' locals succeeds
  have widths : merged.stackSlots = first.stackSlots ↔
      merged.stackValues.map width = first.stackValues.map width := by
    rw [result.shaped.stackSlots_eq, stackSlots, placed.slots_eq]
    exact (sum_width_le (result.narrower provided.policy.shrinks).1).2
  have slots : first.stackSlots = second.stackSlots := result.slots
  have once {again : Frame V} (absorbs : merged.Absorbs domain again)
      (height : again.stackSlots = first.stackSlots) : merged.merge domain again =
        if merged.stackValues.map width = first.stackValues.map width then .ok (merged, false)
        else .error (.incompatibleStackHeights merged.stackSlots first.stackSlots) := by
    split
    · rename_i kept
      exact absorbs.merge ((widths.mpr kept).trans height.symm)
    · rename_i narrowed
      rw [← height]
      exact merge_of_slots_ne fun same => narrowed (widths.mp (same.trans height))
  have right := result.absorbs_right provided.joins
  simp only [List.forall_mem_cons, List.not_mem_nil, false_implies, implies_true, and_true]
  exact ⟨once (result.absorbs_left provided.joins) rfl, once ⟨right.locals, right.stack⟩ slots.symm⟩

/-- A string below a long value. -/
def stringBelowLong : Frame VerificationType :=
  ⟨[.integer, .object (.object .string)], .ofList [.object (.object .string), .long], some 4, none⟩

/-- Null below a long value, with other locals. -/
def nullBelowLong : Frame VerificationType :=
  ⟨[.float, .object (.object .boxedInteger)], .ofList [.null, .long], none, none⟩

/-- A boxed integer and a string have interfaces in common, but meet in the root class. -/
theorem stringBelowLong_merge_again :
    ∃ merged, stringBelowLong.merge (VerificationType.verifier ClassGraph.library.hierarchy)
        nullBelowLong = .ok (merged, true) ∧ merged.locals = [.top, .object (.object .object)] ∧
      ∀ again ∈ [stringBelowLong, nullBelowLong],
        merged.merge (VerificationType.verifier ClassGraph.library.hierarchy) again =
          .ok (merged, false) := by
  have found : (stringBelowLong.merge (VerificationType.verifier ClassGraph.library.hierarchy)
      nullBelowLong).map (fun outcome => (outcome.1.locals, outcome.1.stackValues, outcome.2)) =
        .ok ([.top, .object (.object .object)], [.object (.object .string), .long], true) := by
    decide +kernel
  obtain ⟨⟨merged, changed⟩, succeeds, parts⟩ := map_eq_ok.mp found
  simp only [Prod.mk.injEq] at parts
  obtain ⟨locals, values, rfl⟩ := parts
  have kept : merged.stackValues.map width = stringBelowLong.stackValues.map width := by
    rw [values]
    decide
  refine ⟨merged, succeeds, locals, fun again member => ?_⟩
  have placed : stringBelowLong.stack.Placed := SlotVec.placed_ofList _
  have placed' : nullBelowLong.stack.Placed := SlotVec.placed_ofList _
  have once := merge_again ⟨_, ClassGraph.library_wellFormed, _, .simple⟩ placed placed' rfl succeeds
    again member
  exact once.trans (if_pos kept)

/-- A frame with one value on its stack. -/
def holding (kind : ValueKind) : Frame ValueKind := ⟨[], .ofList [kind], none, none⟩

/-- A long and a double value leave one slot where both took two, and neither merges again. -/
theorem long_merge_double_refused : ∃ merged,
    (holding .long).merge ValueKind.verifier (holding .double) = .ok (merged, true) ∧
      merged.merge ValueKind.verifier (holding .double) =
        .error (.incompatibleStackHeights 1 2) ∧
      merged.merge ValueKind.verifier (holding .long) = .error (.incompatibleStackHeights 1 2) :=
  ⟨holding .unusable, rfl, rfl, rfl⟩

end Frame

end MethodFlow
