import MethodFlow.Proofs.Analysis.Certification

namespace MethodFlow

/-- A family of frames that control keeps to: execution succeeds on each of them, and the frame that
control takes along is refined by none but those where it leads. -/
structure Method.Typing (owner : BinaryName) (method : Method)
    (typing : Nat → Option (Frame ValueKind)) : Prop where
  shaped : ∀ index upper, typing index = some upper → upper.HasShape method.kindShape
  entry : ∃ upper, typing 0 = some upper ∧ upper.stackValues = [] ∧
    ∀ entry, initialFrame ValueKind.verifier owner method method.maxLocals
      (some method.maxStack) = .ok entry → List.Forall₂ ValueKind.Refines entry.locals upper.locals
  onward : ∀ index upper, typing index = some upper → ∃ node after,
    method.nodes[index]? = some node ∧
      node.effect ValueKind.verifier index upper = .ok after ∧
      ∀ target, method.Leads index target → ∃ next, typing target = some next ∧ after.Refines next
  caught : ∀ index upper handler target, typing index = some upper →
    handler ∈ method.handlers → method.Protects handler index →
    method.Places handler.handler target → ∃ caught next,
      upper.clearStack.push (ValueKind.verifier.exception handler.caught) = .ok caught ∧
        typing target = some next ∧ caught.Refines next

theorem Method.Typing.certified {owner : BinaryName} {method : Method}
    {typing : Nat → Option (Frame ValueKind)} (typed : method.Typing owner typing)
    (retless : method.HasNoReturn) (room : method.parameterSlots ≤ method.maxLocals) :
    method.Certified ValueKind.verifier owner typing where
  shaped := typed.shaped
  entry := by
    obtain ⟨upper, known, bare, locals⟩ := typed.entry
    obtain ⟨entry, entered⟩ : ∃ entry, initialFrame ValueKind.verifier owner method
        method.maxLocals (some method.maxStack) = .ok entry :=
      ⟨_, initialFrame_eq_ok.mpr ⟨(entryValues_length ..).symm ▸ room, rfl⟩⟩
    refine ⟨entry, upper, entered, known, locals entry entered, ?_⟩
    obtain ⟨-, rfl⟩ := initialFrame_eq_ok.mp entered
    rw [bare]
    exact .nil
  onward index upper known := by
    obtain ⟨node, after, stands, executed, leads⟩ := typed.onward index upper known
    have notReturn (slot : Nat) : node ≠ .branch (.ret slot) :=
      fun same => retless slot (same ▸ List.mem_of_getElem? stands)
    exact ⟨node, after, stands, notReturn, ValueKind.loadsUsable_of_effect executed, executed, leads⟩
  caught := typed.caught

/-- The verifier of kinds accepts a method without subroutines that has a typing, and the frames that
it finds refine the typing. -/
theorem analyze_of_typing {owner : BinaryName} {method : Method}
    {typing : Nat → Option (Frame ValueKind)} (labelled : method.Labelled)
    (callless : method.HasNoCall) (retless : method.HasNoReturn)
    (room : method.parameterSlots ≤ method.maxLocals) (typed : method.Typing owner typing) :
    ∃ analysis, analyze ValueKind.verifier owner method = .ok analysis ∧
      ∀ index frame, analysis.frame? index = some frame →
        ∃ upper, typing index = some upper ∧ frame.Refines upper := by
  cases code : method.flags.hasNoCode with
  | true =>
    refine ⟨⟨[], none, 0⟩, by simp [analyze, analyzeTraced, analyzeWithin, code], ?_⟩
    intro index frame found
    cases found
  | false =>
    have certified := typed.certified retless room
    exact certified.accepted callless ValueKind.verifier_ofKinds labelled code

/-- A typing of `countingLoop` that knows nothing of the counter once an exception was caught. -/
def countingLoopTyping (index : Nat) : Option (Frame ValueKind) :=
  let frame (slot : ValueKind) (stack : List ValueKind) : Frame ValueKind :=
    ⟨[slot], .ofList stack, some 1, none⟩
  [frame .unusable [], frame .unusable [.int], frame .int [], frame .int [], frame .int [],
    frame .unusable [.reference], frame .unusable [.reference], frame .unusable []][index]?

theorem countingLoop_places {label : Label} {index : Nat}
    (placed : countingLoop.Places label index) :
    label = ⟨0⟩ ∧ index = 2 ∨ label = ⟨1⟩ ∧ index = 5 := by
  rcases index with _ | _ | _ | _ | _ | _ | _ | _ | index <;> cases placed
  · exact .inl ⟨rfl, rfl⟩
  · exact .inr ⟨rfl, rfl⟩

theorem countingLoop_targets {node : Node} {label : Label} (member : node ∈ countingLoop.nodes)
    (used : label ∈ node.targets) : node = .branch (.goto ⟨0⟩) ∧ label = ⟨0⟩ := by
  simp only [countingLoop, List.mem_cons, List.not_mem_nil, or_false] at member
  rcases member with rfl | rfl | rfl | rfl | rfl | rfl | rfl | rfl <;>
    simp_all [Node.targets, Branch.jumpTargets]

theorem countingLoop_leads {index target : Nat} (leads : countingLoop.Leads index target) :
    index = 4 ∧ target = 2 ∨ index ≠ 4 ∧ index ≠ 7 ∧ target = index + 1 := by
  cases leads with
  | next found falls =>
    refine .inr ⟨?_, ?_, rfl⟩
    · rintro rfl
      cases found
      cases falls
    · rintro rfl
      cases found
      cases falls
  | jump found used placed =>
    obtain ⟨rfl, rfl⟩ := countingLoop_targets (List.mem_of_getElem? found) used
    rcases countingLoop_places placed with ⟨-, rfl⟩ | ⟨same, -⟩
    · rcases index with _ | _ | _ | _ | _ | _ | _ | _ | index <;> cases found
      exact .inl ⟨rfl, rfl⟩
    · cases same

theorem countingLoop_labelled : countingLoop.Labelled where
  once label first second placed placed' := by
    rcases countingLoop_places placed with ⟨rfl, rfl⟩ | ⟨rfl, rfl⟩ <;>
      rcases countingLoop_places placed' with ⟨same, rfl⟩ | ⟨same, rfl⟩ <;> simp_all
  targets node member label used := by
    obtain ⟨-, rfl⟩ := countingLoop_targets member used
    exact ⟨2, rfl⟩
  handlers handler member := by
    cases List.mem_singleton.mp member
    exact ⟨2, 5, 5, rfl, rfl, rfl, by decide⟩

theorem countingLoop_typing : countingLoop.Typing .object countingLoopTyping where
  shaped index upper known := by
    rcases index with _ | _ | _ | _ | _ | _ | _ | _ | index <;> cases known <;>
      exact ⟨rfl, SlotVec.placed_ofList _, rfl, rfl⟩
  entry := by
    refine ⟨_, rfl, rfl, fun entry entered => ?_⟩
    cases entered
    exact .cons (.inl rfl) .nil
  onward index upper known := by
    rcases index with _ | _ | _ | _ | _ | _ | _ | _ | index <;> cases known <;>
      refine ⟨_, _, rfl, rfl, fun target leads => ?_⟩ <;>
      rcases countingLoop_leads leads with ⟨here, rfl⟩ | ⟨here, last, rfl⟩
    all_goals first
      | exact ⟨_, rfl, .cons (.inl rfl) .nil, .cons ⟨.inl rfl, rfl⟩ .nil⟩
      | exact ⟨_, rfl, .cons (.inl rfl) .nil, .nil⟩
      | exact ⟨_, rfl, .cons (.inr rfl) .nil, .nil⟩
      | exact absurd rfl here
      | exact absurd rfl last
      | cases here
  caught index upper handler target known member protects placed := by
    cases List.mem_singleton.mp member
    obtain ⟨first, past, placed₁, placed₂, lower, higher⟩ := protects
    rcases countingLoop_places placed with ⟨same, -⟩ | ⟨-, rfl⟩
    · cases same
    rcases countingLoop_places placed₁ with ⟨-, rfl⟩ | ⟨same, -⟩
    · rcases countingLoop_places placed₂ with ⟨same, -⟩ | ⟨-, rfl⟩
      · cases same
      have inside : index = 2 ∨ index = 3 ∨ index = 4 := by omega
      rcases inside with rfl | rfl | rfl <;> cases known <;>
        exact ⟨_, _, rfl, rfl, .cons (.inr rfl) .nil, .cons ⟨.inl rfl, rfl⟩ .nil⟩
    · cases same

theorem countingLoop_accepted : ∃ analysis,
    analyze ValueKind.verifier .object countingLoop = .ok analysis ∧
      ∀ index frame, analysis.frame? index = some frame →
        ∃ upper, countingLoopTyping index = some upper ∧ frame.Refines upper := by
  have callless : countingLoop.HasNoCall := by
    simp [Method.HasNoCall, countingLoop, Node.branch, Node.instruction]
  have retless : countingLoop.HasNoReturn := by
    simp [Method.HasNoReturn, countingLoop, Node.branch, Node.instruction]
  exact analyze_of_typing countingLoop_labelled callless retless (by decide) countingLoop_typing

end MethodFlow
