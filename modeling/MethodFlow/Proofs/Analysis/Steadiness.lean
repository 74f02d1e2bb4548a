import MethodFlow.Proofs.Analysis.Certification
import MethodFlow.Proofs.Analysis.Heights

/-! Analyses whose frames certify the method. A merge loses how wide a value is that it makes unusable;
where no stack gets lower that way, and no unusable local is loaded, the frames of an analysis are a
certificate, and so the result does not depend on the order of the merges. -/

namespace MethodFlow

/-- An analysis succeeds, control brings to every index a stack of as many slots as there are in the
frame there, and nodes load usable locals only. -/
structure SteadyAnalysis (domain : Domain ValueKind) (owner : BinaryName) (method : Method)
    (analysis : Analysis ValueKind) : Prop where
  analyzed : analyze domain owner method = .ok analysis
  level : ∀ index target frame node after next, analysis.frame? index = some frame →
    method.nodes[index]? = some node → node.effect domain index frame = .ok after →
    method.Leads index target → analysis.frame? target = some next →
    next.stackSlots = after.stackSlots
  usable : ∀ index frame node, analysis.frame? index = some frame →
    method.nodes[index]? = some node → node.LoadsUsable frame

variable {domain : Domain ValueKind} {owner : BinaryName} {method : Method}
  {analysis : Analysis ValueKind}

namespace ValueKind

theorem Refines.width_le {value upper : ValueKind} (refines : value.Refines upper) :
    width upper ≤ width value := by
  rcases refines with rfl | rfl
  · exact Nat.le_refl _
  · cases value <;> decide

theorem Refines.antisymm {value upper : ValueKind} (below : value.Refines upper)
    (above : upper.Refines value) : value = upper := by
  rcases below with rfl | rfl
  · rfl
  · rcases above with rfl | rfl <;> rfl

theorem matches_of_widths {values uppers : List ValueKind}
    (refines : List.Forall₂ Refines values uppers) (widths : uppers.map width = values.map width) :
    List.Forall₂ (Matches Refines) values uppers := by
  induction refines with
  | nil => exact .nil
  | cons head _ ih =>
    obtain ⟨same, others⟩ := List.cons.inj widths
    exact .cons ⟨head, same.symm⟩ (ih others)

end ValueKind

theorem Domain.OfKinds.refines_of_absorbs (kinds : domain.OfKinds) {upper lower : ValueKind}
    (absorbs : domain.Absorbs upper lower) : lower.Refines upper := by
  rcases kinds.eq_or_eq with rfl | rfl
  · exact ValueKind.verifier_absorbs.mp absorbs
  · exact ValueKind.verifier_absorbs.mp absorbs

namespace Frame

variable {frame upper : Frame ValueKind}

/-- A frame refines one that absorbs it and whose stack is as high. -/
theorem refines_of_absorbs (kinds : domain.OfKinds) (absorbs : upper.Absorbs domain frame)
    (placed : frame.stack.Placed) (placed' : upper.stack.Placed)
    (level : upper.stackSlots = frame.stackSlots) : frame.Refines upper := by
  have below {values uppers : List ValueKind} (absorbs : List.Forall₂ domain.Absorbs uppers values) :
      List.Forall₂ ValueKind.Refines values uppers :=
    absorbs.flip.imp fun _ _ => kinds.refines_of_absorbs
  refine ⟨below absorbs.locals, ValueKind.matches_of_widths (below absorbs.stack) ?_⟩
  have narrower := absorbs.stack.imp fun _ _ known => (kinds.refines_of_absorbs known).width_le
  rw [stackSlots, stackSlots, placed.slots_eq, placed'.slots_eq] at level
  exact (sum_width_le narrower).2.mp level

/-- What a handler gets refines a frame that absorbs it: references and what is not usable take one
slot both. -/
theorem caught_refines (kinds : domain.OfKinds) {type : BinaryName} {caught next : Frame ValueKind}
    (pushed : frame.clearStack.push (domain.exception type) = .ok caught)
    (absorbs : next.Absorbs domain caught) (placed : caught.stack.Placed)
    (placed' : next.stack.Placed) : caught.Refines next := by
  have values : caught.stack.toList = [domain.exception type] := (caught_of_push pushed).2
  have single := absorbs.stack
  rw [stackValues, stackValues, values] at single
  obtain ⟨value, _, known, empty, values'⟩ := List.forall₂_cons_right_iff.mp single
  cases empty
  have reference : domain.exception type = .reference := by
    rcases kinds.eq_or_eq with rfl | rfl <;> rfl
  have narrow : width value = width (domain.exception type) := by
    rw [reference] at known ⊢
    rcases kinds.refines_of_absorbs known with rfl | rfl <;> rfl
  refine refines_of_absorbs kinds absorbs placed placed' ?_
  rw [stackSlots, stackSlots, placed.slots_eq, placed'.slots_eq, values, values']
  simp only [List.map_cons, List.map_nil, narrow]

namespace Refines

theorem refl (frame : Frame ValueKind) : frame.Refines frame :=
  ⟨List.forall₂_same.mpr fun _ _ => .refl _, List.forall₂_same.mpr fun _ _ => ValueKind.matches_refl _⟩

theorem stackSlots_eq (refines : frame.Refines upper) (placed : frame.stack.Placed)
    (placed' : upper.stack.Placed) : frame.stackSlots = upper.stackSlots := by
  rw [stackSlots, stackSlots, placed.slots_eq, placed'.slots_eq]
  exact sum_width_eq refines.stack

theorem antisymm {shape : FrameShape ValueKind} (shaped : frame.HasShape shape)
    (shaped' : upper.HasShape shape) (below : frame.Refines upper) (above : upper.Refines frame) :
    frame = upper := by
  have same {values uppers : List ValueKind} (below : List.Forall₂ ValueKind.Refines values uppers)
      (above : List.Forall₂ ValueKind.Refines uppers values) : values = uppers := by
    rw [← List.forall₂_eq_eq_eq]
    induction below with
    | nil => exact .nil
    | cons head _ ih =>
      cases above with
      | cons head' tail' => exact .cons (head.antisymm head') (ih tail')
  exact shaped.ext shaped' (same below.locals above.locals)
    (same (below.stack.imp fun _ _ => Matches.related) (above.stack.imp fun _ _ => Matches.related))

theorem loadsUsable (refines : frame.Refines upper) {node : Node} (usable : node.LoadsUsable upper) :
    node.LoadsUsable frame := by
  intro kind slot loads read
  obtain ⟨inside, value⟩ := List.getElem?_eq_some_iff.mp (local?_eq_ok.mp read)
  have inside' : slot < upper.locals.length := refines.locals.length_eq ▸ inside
  refine usable kind slot loads (local?_eq_ok.mpr (List.getElem?_eq_some_iff.mpr ⟨inside', ?_⟩))
  rcases refines.locals.get inside inside' with same | lost
  · exact same.trans value
  · exact lost

end Refines

end Frame

theorem labelled_of_analyze (code : method.flags.hasNoCode = false)
    (analyzed : analyze domain owner method = .ok analysis) : method.Labelled := by
  obtain ⟨_, _, _, _, _, prepared, -⟩ := run_of_result code analyzed
  exact Method.labelled_of_flow prepared.resolved

theorem fits_of_analyze (kinds : domain.OfKinds) (code : method.flags.hasNoCode = false)
    (analyzed : analyze domain owner method = .ok analysis) {index : Nat} {frame : Frame ValueKind}
    (found : analysis.frame? index = some frame) : frame.Fits method.kindShape := by
  obtain ⟨_, _, _, _, _, _, _, _, _, rfl, -, coherent, -⟩ :=
    stable_of_result kinds.joins kinds.bounded.policy.narrows code analyzed
  rw [kinds.frameShape_eq] at coherent
  exact coherent.fits index frame found

theorem Node.fits_of_effect {V : Type} [AbstractValue V] {domain : Domain V} {shape : FrameShape V}
    {node : Node} {index : Nat} {frame after : Frame V} (fits : frame.Fits shape)
    (executed : node.effect domain index frame = .ok after) : after.Fits shape := by
  cases node with
  | label | line =>
    cases executed
    exact fits
  | operation operation => exact fits.execute executed

namespace SteadyAnalysis

variable (steady : SteadyAnalysis domain owner method analysis)

include steady

/-- The frames of a steady analysis certify a method without subroutines. -/
theorem certified (kinds : domain.OfKinds) (callless : method.HasNoCall)
    (code : method.flags.hasNoCode = false) : method.Certified domain owner analysis.frame? := by
  have fits {index : Nat} {frame : Frame ValueKind} (found : analysis.frame? index = some frame) :=
    fits_of_analyze kinds code steady.analyzed found
  have narrows : domain.Narrows := kinds.bounded.policy.narrows
  obtain ⟨flow, table, entry, start, final, count, prepared, run, done, same, resolved, coherent,
    stable, gains⟩ := stable_of_result kinds.joins narrows code steady.analyzed
  have isStart := prepared.isStart narrows
  have uncalled := resolved.uncalled callless
  have recordless : final.Recordless :=
    .run narrows uncalled isStart.coherent (prepared.recordless narrows uncalled) run
  subst same
  refine ⟨fun index upper found => (fits found).toHasShape, ?_, fun index upper found => ?_,
    fun index upper handler target found member protects placed => ?_⟩
  · obtain ⟨first, found, absorbs⟩ := gains.frames 0 entry ((isStart.frames 0 entry).mpr ⟨rfl, rfl⟩)
    refine ⟨entry, first, prepared.entered, found, ?_⟩
    have fits' := initialFrame_fits prepared.entered
    refine Frame.refines_of_absorbs kinds absorbs fits'.placed (fits found).placed ?_
    obtain ⟨-, rfl⟩ := initialFrame_eq_ok.mp prepared.entered
    have empty : first.stackValues = [] := List.forall₂_nil_right_iff.mp absorbs.stack
    rw [Frame.stackSlots, (fits found).placed.slots_eq]
    exact congrArg (fun values => (values.map width).sum) empty
  · have pointed := List.getElem?_eq_getElem (coherent.inside found)
    obtain ⟨node, stands, actioned, -⟩ := resolved.node_of_point pointed
    obtain ⟨after, settled⟩ := stable index upper _ (by simp [done]) found pointed
    have executed := (effect_of_action actioned).symm.trans settled.executed
    refine ⟨node, after, stands, ?_, steady.usable index upper node found stands, executed,
      fun target leads => ?_⟩
    · rintro slot rfl
      obtain ⟨record, used, -⟩ := settled.back (.ret slot) slot (Except.ok.inj actioned).symm
      cases (AnalysisState.record_eq_none (recordless index)).symm.trans used
    · obtain ⟨next, found', absorbs⟩ := settled.arrived resolved stands actioned leads
      refine ⟨next, found', Frame.refines_of_absorbs kinds absorbs ?_ (fits found').placed ?_⟩
      · exact (Node.fits_of_effect (fits found) executed).placed
      · exact steady.level index target upper node after next found stands executed leads found'
  · have pointed := List.getElem?_eq_getElem (coherent.inside found)
    obtain ⟨node, stands, -, handlers⟩ := resolved.node_of_point pointed
    obtain ⟨after, settled⟩ := stable index upper _ (by simp [done]) found pointed
    obtain ⟨caught, pushed, arrived⟩ :=
      settled.handlers target handler ((handlers target handler).mpr ⟨member, protects, placed⟩)
    obtain ⟨next, found', absorbs⟩ := arrived.frame
    exact ⟨caught, next, pushed, found', Frame.caught_refines kinds pushed absorbs
      ((fits found).clearStack.push pushed).placed (fits found').placed⟩

end SteadyAnalysis

variable {frames : Nat → Option (Frame ValueKind)}

/-- A method without subroutines that is certified has a steady analysis, whose frames refine the
certificate. -/
theorem Method.Certified.steady (certified : method.Certified domain owner frames)
    (kinds : domain.OfKinds) (callless : method.HasNoCall) (labelled : method.Labelled)
    (code : method.flags.hasNoCode = false) :
    ∃ analysis, SteadyAnalysis domain owner method analysis ∧
      ∀ index frame, analysis.frame? index = some frame →
        ∃ upper, frames index = some upper ∧ frame.Refines upper := by
  obtain ⟨analysis, analyzed, below⟩ := certified.accepted callless kinds labelled code
  have fits {index : Nat} {frame : Frame ValueKind} (found : analysis.frame? index = some frame) :=
    fits_of_analyze kinds code analyzed found
  refine ⟨analysis, ⟨analyzed, ?_, ?_⟩, below⟩
  · intro index target frame node after next found stands executed leads found'
    obtain ⟨upper, known, refines⟩ := below index frame found
    obtain ⟨node', after', stands', -, usable, executed', onward⟩ :=
      certified.onward index upper known
    cases stands.symm.trans stands'
    obtain ⟨upper', known', refines'⟩ := onward target leads
    obtain ⟨_, same, narrower⟩ := refines.effect kinds (fits found).toHasShape
      (certified.shaped index upper known) usable executed'
    cases executed.symm.trans same
    obtain ⟨_, known'', refines''⟩ := below target next found'
    cases known'.symm.trans known''
    have placed := (certified.shaped target upper' known').placed
    have fits' := Node.fits_of_effect (fits found) executed
    rw [refines''.stackSlots_eq (fits found').placed placed,
      (narrower.trans refines').stackSlots_eq fits'.placed placed]
  · intro index frame node found stands
    obtain ⟨upper, known, refines⟩ := below index frame found
    obtain ⟨node', after', stands', -, usable, -⟩ := certified.onward index upper known
    cases stands.symm.trans stands'
    exact refines.loadsUsable usable

end MethodFlow
