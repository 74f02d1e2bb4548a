import MethodFlow.Proofs.Analysis.Evaluation
import MethodFlow.Proofs.Domain.Policies

/-! The height of the stack in slots along control flow. A merge is only made between stacks of one
height, but it may narrow an entry, so that the frame it yields is lower than both. -/

namespace MethodFlow

open Relation (ReflTransGen)

variable {V : Type} [AbstractValue V] {domain : Domain V} {flow : Flow} {shape : FrameShape V}

namespace Frame

/-- No entry of the stack takes more slots than the entry in its place in another frame. -/
def Narrower (frame other : Frame V) : Prop :=
  List.Forall₂ (fun value value' => width value ≤ width value') frame.stackValues other.stackValues

theorem Narrower.refl (frame : Frame V) : frame.Narrower frame :=
  List.forall₂_same.mpr fun _ _ => Nat.le_refl _

theorem Narrower.trans {upper middle lower : Frame V} (above : upper.Narrower middle)
    (below : middle.Narrower lower) : upper.Narrower lower :=
  forall₂_trans above below fun _ _ _ => Nat.le_trans

theorem Merged.narrower (shrinks : domain.Shrinks) {old new after : Frame V} {changed : Bool}
    (merged : Merged domain shape old new after changed) :
    after.Narrower old ∧ after.Narrower new :=
  merged.stack.narrower shrinks

/-- A narrower stack is lower, and as high only if its entries are as wide. -/
theorem Narrower.stackSlots {frame other : Frame V} (narrower : frame.Narrower other)
    (fits : frame.Fits shape) (fits' : other.Fits shape) :
    frame.stackSlots ≤ other.stackSlots ∧
      (frame.stackSlots = other.stackSlots ↔
        frame.stackValues.map width = other.stackValues.map width) := by
  rw [fits.stackSlots_eq, fits'.stackSlots_eq]
  exact sum_width_le narrower

end Frame

namespace AnalysisState

/-- Control goes from an index along the code or into a subroutine, with the frame after it. -/
def Enters {V : Type} (visit : Visit V) (target : Nat) : Prop :=
  (∃ labelled, visit.point.action = .branch labelled (.jsr target)) ∨
    (visit.point.action.isPlain = true ∧ target ∈ visit.point.action.successors visit.index)

/-- Where control goes from an index that is not queued, the stack is as narrow as what it brings. -/
def Leveled (domain : Domain V) (flow : Flow) (state : AnalysisState V) : Prop :=
  ∀ index frame point, index ∉ state.worklist → state.frame? index = some frame →
    flow[index]? = some point → ∃ after, point.action.effect domain index frame = .ok after ∧
      ∀ target, Enters ⟨state, index, point, frame, after⟩ target →
        ∃ next, state.frame? target = some next ∧ next.Narrower after

variable {visit : Visit V} {state popped final : AnalysisState V} {index count : Nat}

theorem rises_narrower (shrinks : domain.Shrinks) (shape : FrameShape V) :
    Rises domain shape Frame.Narrower where
  refl := Frame.Narrower.refl
  trans := Frame.Narrower.trans
  merged merged := (merged.narrower shrinks).1

/-- Where a frame has been merged on the way, the frame at the end is related to it as merged frames
are to those they come from. -/
theorem Delivers.above {above : Frame V → Frame V → Prop} (rises : Rises domain shape above)
    (merging : ∀ {old new after changed}, Frame.Merged domain shape old new after changed →
      above after new)
    (narrows : domain.Narrows) (valid : visit.Valid flow shape) {target : Nat} {sent : Frame V}
    {record : Option Subroutine}
    (sends : ∀ now, Sends domain shape.maxLocals visit now target sent record)
    (delivers : Delivers domain (Touches domain shape.maxLocals visit) target sent record
      visit.before final) : ∃ next, final.frame? target = some next ∧ above next sent := by
  obtain ⟨now, next, earlier, merged, later⟩ := delivers
  obtain ⟨coherent, grown⟩ :=
    steps_grow rises narrows valid valid.coherent (.refl rises visit.before) earlier
  obtain ⟨coherent', grown'⟩ :=
    (Touches.merge (sends now) merged).grows rises narrows valid coherent grown
  obtain ⟨-, grown''⟩ :=
    steps_grow rises narrows valid coherent' (grown.trans rises grown') later
  obtain ⟨fits, recorded⟩ := (sends now).fits valid coherent
  obtain ⟨inside, -, own, changed, joined, rfl⟩ := coherent.merge narrows fits recorded merged
  have arrived : above own sent := by
    cases present : now.frame? target with
    | none =>
      obtain ⟨rfl, -⟩ := joined.first present
      exact rises.refl own
    | some old => exact merging (joined.merged old present)
  obtain ⟨last, found, further⟩ := grown''.frames target own
    (by rw [frame?_updated (coherent.frames_length ▸ inside), if_pos rfl])
  exact ⟨last, found, rises.trans further arrived⟩

theorem Delivers.narrower (shrinks : domain.Shrinks) (valid : visit.Valid flow shape)
    {target : Nat} {sent : Frame V} {record : Option Subroutine}
    (sends : ∀ now, Sends domain shape.maxLocals visit now target sent record)
    (delivers : Delivers domain (Touches domain shape.maxLocals visit) target sent record
      visit.before final) : ∃ next, final.frame? target = some next ∧ next.Narrower sent :=
  delivers.above (rises_narrower shrinks shape) (fun merged => (merged.narrower shrinks).2)
    shrinks.narrows valid sends

theorem Processed.narrower (shrinks : domain.Shrinks) (valid : visit.Valid flow shape)
    (processed : Processed domain shape.maxLocals visit final) {target : Nat}
    (enters : Enters visit target) :
    ∃ next, final.frame? target = some next ∧ next.Narrower visit.after := by
  rcases enters with ⟨labelled, calls⟩ | ⟨plain, successor⟩
  · exact (processed.call labelled target calls).1.narrower shrinks valid fun _ => .call calls
  · exact (processed.onward plain target successor).narrower shrinks valid
      fun _ => .onward plain successor

theorem Leveled.process (shrinks : domain.Shrinks) (coherent : state.Coherent flow shape)
    (leveled : state.Leveled domain flow) (taken : state.next? = some (index, popped))
    (processed : popped.process domain flow shape.maxLocals index = .ok final) :
    final.Leveled domain flow := by
  have rises := rises_narrower shrinks shape
  have coherent' := coherent.next? taken
  obtain ⟨-, grown⟩ := coherent'.process rises shrinks.narrows processed
  have known (other : Nat) : popped.frame? other = state.frame? other := by
    simp [frame?, (known_next? taken).1]
  intro other frame point unqueued found pointed
  obtain ⟨unqueued', frames, -⟩ := grown.settled unqueued
  by_cases own : other = index
  · subst own
    obtain ⟨after, visited⟩ := process_eq_ok (frames ▸ found) pointed processed
    have valid : Visit.Valid flow shape ⟨popped, other, point, frame, after⟩ :=
      ⟨coherent', pointed, frames ▸ found,
        fits_of_effect (coherent'.fits _ _ (frames ▸ found)) visited.executed⟩
    exact ⟨after, visited.executed, fun target enters => visited.narrower shrinks valid enters⟩
  · have waiting : other ∉ state.worklist := fun member =>
      unqueued' (((coherent.toQueued.next? taken).2 other).mpr ⟨member, own⟩)
    obtain ⟨after, executed, entered⟩ :=
      leveled other frame point waiting (by rw [← known, ← frames]; exact found) pointed
    refine ⟨after, executed, fun target enters => ?_⟩
    obtain ⟨next, found', narrower⟩ := entered target enters
    obtain ⟨last, found'', narrower'⟩ :=
      grown.frames target next ((known target).trans found')
    exact ⟨last, found'', narrower'.trans narrower⟩

theorem Run.leveled (shrinks : domain.Shrinks) {start : AnalysisState V}
    (coherent : start.Coherent flow shape) (leveled : start.Leveled domain flow)
    (run : Run domain flow shape.maxLocals start count final) :
    final.Coherent flow shape ∧ final.Leveled domain flow := by
  have rises := rises_narrower shrinks shape
  induction run with
  | start => exact ⟨coherent, leveled⟩
  | step run taken processed ih =>
    obtain ⟨coherent', leveled'⟩ := ih
    obtain ⟨coherent'', -⟩ := (coherent'.next? taken).process rises shrinks.narrows processed
    exact ⟨coherent'', leveled'.process shrinks coherent' taken processed⟩

theorem IsStart.leveled {entry : Frame V} {start : AnalysisState V}
    (isStart : start.IsStart flow shape entry) : start.Leveled domain flow := by
  intro index frame point unqueued found
  obtain ⟨rfl, -⟩ := (isStart.frames index frame).mp found
  rw [isStart.worklist] at unqueued
  exact absurd List.mem_cons_self unqueued

end AnalysisState

/-- Where control leads, the stack has as many entries as what it brings and never more slots. It has
as many slots just when no entry that is brought was narrowed by a merge. -/
theorem stackSlots_of_leads (policy : domain.Policy) {owner : BinaryName} {method : Method}
    {analysis : Analysis V} (code : method.flags.hasNoCode = false)
    (analyzed : analyze domain owner method = .ok analysis) {index target : Nat} {frame : Frame V}
    (found : analysis.frame? index = some frame) (leads : method.Leads index target) :
    ∃ node after next, method.nodes[index]? = some node ∧
      node.effect domain index frame = .ok after ∧ analysis.frame? target = some next ∧
      next.stackLength = after.stackLength ∧ next.stackSlots ≤ after.stackSlots ∧
      (next.stackSlots = after.stackSlots ↔
        next.stackValues.map width = after.stackValues.map width) := by
  have shrinks : domain.Shrinks := policy.shrinks
  obtain ⟨flow, entry, start, final, count, prepared, run, done, rfl⟩ :=
    run_of_result code analyzed
  have isStart := prepared.isStart shrinks.narrows
  obtain ⟨coherent, leveled⟩ := run.leveled shrinks isStart.coherent isStart.leveled
  obtain ⟨table, resolved⟩ := Method.resolved_of_flow prepared.resolved
  have known : final.frame? index = some frame := found
  have pointed := List.getElem?_eq_getElem (coherent.inside known)
  obtain ⟨node, stands, actioned, -⟩ := resolved.node_of_point pointed
  obtain ⟨after, executed, entered⟩ := leveled index frame _ (by simp [done]) known pointed
  obtain ⟨next, found', narrower⟩ := entered target
    (resolved.successor_of_leads stands actioned leads)
  have fits := coherent.fits index frame known
  obtain ⟨lower, same⟩ := narrower.stackSlots (coherent.fits target next found')
    (AnalysisState.fits_of_effect fits executed)
  rw [effect_of_action actioned] at executed
  have lengths : next.stackLength = after.stackLength := by
    rw [Frame.stackLength, SlotVec.length_eq, Frame.stackLength, SlotVec.length_eq]
    exact narrower.length_eq
  exact ⟨node, after, next, stands, executed, found', lengths, lower, same⟩

/-- Comes to one label with a long value below an integer, and with the integer below the long. -/
def crossedEntries : Method where
  flags := .static
  name := ⟨"cross".toList, by decide⟩
  descriptor := ⟨[.base .int], none⟩
  nodes := [.instruction (.shortConstant .long0), .instruction (.shortConstant .int0),
    .instruction (.load .int 0), .branch (.tableSwitch ⟨1⟩ 0 [⟨0⟩]), .label ⟨0⟩,
    .instruction (.shuffle .pop), .instruction (.shuffle .pop2), .instruction (.shortConstant .int0),
    .instruction (.shortConstant .long0), .label ⟨1⟩, .branch .voidReturn]
  handlers := []
  maxStack := 4
  maxLocals := 1

theorem crossedEntries_analyzed : ∃ analysis before next after,
    analyze ValueKind.verifier .object crossedEntries = .ok analysis ∧
      analysis.frame? 3 = some before ∧ analysis.frame? 9 = some next ∧
      (Node.branch (.tableSwitch ⟨1⟩ 0 [⟨0⟩])).effect ValueKind.verifier 3 before = .ok after ∧
      after.stackSlots = 3 ∧ next.stackSlots = 2 := by
  have found : (analyze ValueKind.verifier .object crossedEntries).map (fun analysis =>
      ((analysis.frame? 3).map fun before =>
          ((Node.branch (.tableSwitch ⟨1⟩ 0 [⟨0⟩])).effect ValueKind.verifier 3 before).map
            Frame.stackSlots,
        (analysis.frame? 9).map Frame.stackSlots)) = .ok (some (.ok 3), some 2) := by cbv
  obtain ⟨analysis, analyzed, frames⟩ := map_eq_ok.mp found
  simp only [Prod.mk.injEq, Option.map_eq_some_iff] at frames
  obtain ⟨⟨before, present, executed⟩, ⟨next, present', slots'⟩⟩ := frames
  obtain ⟨after, executed, slots⟩ := map_eq_ok.mp executed
  exact ⟨analysis, before, next, after, analyzed, present, present', executed, slots, slots'⟩

theorem crossedEntries_stackSlots : ∃ analysis before,
    analyze ValueKind.verifier .object crossedEntries = .ok analysis ∧
      analysis.frame? 3 = some before ∧ crossedEntries.Leads 3 9 ∧
      ∃ node after next, crossedEntries.nodes[3]? = some node ∧
        node.effect ValueKind.verifier 3 before = .ok after ∧ analysis.frame? 9 = some next ∧
        next.stackLength = after.stackLength ∧ next.stackSlots ≤ after.stackSlots ∧
        (next.stackSlots = after.stackSlots ↔
          next.stackValues.map width = after.stackValues.map width) := by
  obtain ⟨analysis, before, -, -, analyzed, present, -⟩ := crossedEntries_analyzed
  have leads : crossedEntries.Leads 3 9 := .jump rfl List.mem_cons_self rfl
  exact ⟨analysis, before, analyzed, present, leads,
    stackSlots_of_leads ValueKind.verifier_policy (by decide) analyzed present leads⟩

/-- The switch brings three slots to its default, where both entries have become unusable and are in
one slot each. -/
theorem crossedEntries_lower : crossedEntries.HasNoCall ∧ ∃ analysis before next node after,
    analyze ValueKind.verifier .object crossedEntries = .ok analysis ∧
      crossedEntries.Leads 3 9 ∧ crossedEntries.nodes[3]? = some node ∧
      analysis.frame? 3 = some before ∧ node.effect ValueKind.verifier 3 before = .ok after ∧
      analysis.frame? 9 = some next ∧ after.stackSlots ≠ next.stackSlots := by
  obtain ⟨analysis, before, next, after, analyzed, present, present', executed, slots, slots'⟩ :=
    crossedEntries_analyzed
  have callless : crossedEntries.HasNoCall := by
    simp [Method.HasNoCall, crossedEntries, Node.branch, Node.instruction]
  have leads : crossedEntries.Leads 3 9 := .jump rfl List.mem_cons_self rfl
  exact ⟨callless, analysis, before, next, _, after, analyzed, leads, rfl, present, executed,
    present', by simp [slots, slots']⟩

end MethodFlow
