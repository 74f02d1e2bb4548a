import MethodFlow.Proofs.Analysis.Running

namespace MethodFlow

open Relation (ReflTransGen)

variable {V : Type} [AbstractValue V] {domain : Domain V} {flow : Flow} {shape : FrameShape V}
  {visit : Visit V} {allowed : V → Prop}

omit [AbstractValue V] in
/-- A property that a domain keeps in code of so many nodes. -/
structure Domain.Keeps (domain : Domain V) (nodes : Nat) (allowed : V → Prop) : Prop where
  closed : ∀ site, site.index < nodes → domain.ClosedAt site allowed
  typed : ∀ type, allowed (domain.valueOf type)
  merged : ∀ {old new value}, allowed old → allowed new → domain.merge old new = .ok value →
    allowed value

omit [AbstractValue V] in
theorem Frame.Holds.mergeSubroutine {frame caller : Frame V} (fine : frame.Holds allowed)
    (fine' : caller.Holds allowed) (used : List Bool) :
    (frame.mergeSubroutine caller used).Holds allowed := by
  refine ⟨?_, fine.stack⟩
  have general (values callers : List V) (used : List Bool) (good : ∀ value ∈ values, allowed value)
      (good' : ∀ value ∈ callers, allowed value) :
      ∀ value ∈ Frame.restoreLocals values callers used, allowed value := by
    induction values generalizing callers used with
    | nil => cases callers <;> simp [Frame.restoreLocals]
    | cons value values ih =>
      cases callers with
      | nil => simpa [Frame.restoreLocals] using good
      | cons caller callers =>
        rw [List.forall_mem_cons] at good good'
        simp only [Frame.restoreLocals, List.forall_mem_cons]
        refine ⟨?_, ih callers used.tail good.2 good'.2⟩
        split
        · exact good.1
        · exact good'.1
  exact general _ _ _ fine.locals fine'.locals

theorem Frame.Merged.holds {old new after : Frame V} {changed : Bool}
    (merged : Frame.Merged domain shape old new after changed)
    (closed : ∀ {old new value}, allowed old → allowed new → domain.merge old new = .ok value →
      allowed value) (fine : old.Holds allowed) (fine' : new.Holds allowed) : after.Holds allowed :=
  ⟨merged.locals.holds closed fine.locals fine'.locals,
    merged.stack.holds closed fine.stack fine'.stack⟩

theorem holds_of_effect {index : Nat} {action : Action} {frame after : Frame V}
    (closed : ∀ operation, domain.ClosedAt ⟨index, operation⟩ allowed) (fits : frame.Fits shape)
    (fine : frame.Holds allowed) (executed : action.effect domain index frame = .ok after) :
    after.Holds allowed := by
  rcases Action.effect_eq_ok executed with rfl | ⟨operation, executed⟩
  · exact fine
  · exact fine.execute fits (closed operation) executed

namespace AnalysisState

omit [AbstractValue V] in
/-- A property holds of all values in the frames of a state. -/
def Holds (allowed : V → Prop) (state : AnalysisState V) : Prop :=
  ∀ index frame, state.frame? index = some frame → frame.Holds allowed

theorem Sends.holds (keeps : domain.Keeps flow.length allowed) (valid : visit.Valid flow shape)
    (fine : visit.after.Holds allowed) {now : AnalysisState V} (before : visit.before.Holds allowed)
    (good : now.Holds allowed) {target : Nat} {sent : Frame V} {record : Option Subroutine}
    (sends : Sends domain shape.maxLocals visit now target sent record) : sent.Holds allowed := by
  cases sends with
  | onward | call => exact fine
  | back returns inside member found => exact fine.mergeSubroutine (good _ _ found) _
  | handler member pushed =>
    have own := before _ _ valid.found
    have fits := (valid.coherent.fits _ _ valid.found).clearStack
    have cleared : visit.frame.clearStack.Holds allowed := ⟨own.locals, by simp [Frame.clearStack,
      Frame.stackValues]⟩
    exact ((Frame.fits_invariant shape allowed).push ⟨fits, cleared⟩ (keeps.typed _) pushed).2

theorem Touches.holds (keeps : domain.Keeps flow.length allowed) (narrows : domain.Narrows)
    (valid : visit.Valid flow shape) (fine : visit.after.Holds allowed)
    (before : visit.before.Holds allowed) {now next : AnalysisState V}
    (coherent : now.Coherent flow shape) (good : now.Holds allowed)
    (touches : Touches domain shape.maxLocals visit now next) : next.Holds allowed := by
  cases touches with
  | merge sends merged =>
    obtain ⟨fits, recorded⟩ := sends.fits valid coherent
    obtain ⟨inside, -, own, changed, joined, rfl⟩ := coherent.merge narrows fits recorded merged
    have sent := sends.holds keeps valid fine before good
    intro index frame found
    rw [frame?_updated (coherent.frames_length ▸ inside)] at found
    split at found
    · cases found
      cases present : now.frame? _ with
      | none =>
        obtain ⟨rfl, -⟩ := joined.first present
        exact sent
      | some old => exact (joined.merged old present).holds keeps.merged (good _ _ present) sent
    · exact good index frame found
  | requeue calls member =>
    intro index frame found
    rw [frame?_enqueue] at found
    exact good index frame found
  | register returns inside started => exact good

variable {state final start : AnalysisState V} {index count : Nat}

omit [AbstractValue V] in
theorem Holds.next? {popped : AnalysisState V} (good : state.Holds allowed)
    (taken : state.next? = some (index, popped)) : popped.Holds allowed := by
  intro other frame found
  rw [frame?, (known_next? taken).1] at found
  exact good other frame found

theorem Holds.process (keeps : domain.Keeps flow.length allowed) (narrows : domain.Narrows)
    (coherent : state.Coherent flow shape) (good : state.Holds allowed)
    (processed : state.process domain flow shape.maxLocals index = .ok final) :
    final.Holds allowed := by
  rcases coherent.process_cases processed with ⟨rfl, -⟩ | ⟨point, frame, after, valid, visited⟩
  · exact good
  · have inside : index < flow.length := coherent.inside valid.found
    have fine : after.Holds allowed :=
      holds_of_effect (fun operation => keeps.closed ⟨index, operation⟩ inside)
        (coherent.fits _ _ valid.found) (good _ _ valid.found) visited.executed
    exact steps_keep narrows valid
      (fun coherent' good' touches => touches.holds keeps narrows valid fine good coherent' good')
      good visited.steps

/-- The property holds of all values in every state of a run from one where it does. -/
theorem Run.holds (keeps : domain.Keeps flow.length allowed) (narrows : domain.Narrows)
    (coherent : start.Coherent flow shape) (good : start.Holds allowed)
    (run : Run domain flow shape.maxLocals start count final) :
    final.Coherent flow shape ∧ final.Holds allowed := by
  have rises := rises_any domain shape
  induction run with
  | start => exact ⟨coherent, good⟩
  | step run taken processed ih =>
    obtain ⟨coherent', good'⟩ := ih
    have coherent'' := coherent'.next? taken
    exact ⟨(coherent''.process rises narrows processed).1,
      (good'.next? taken).process keeps narrows coherent'' processed⟩

end AnalysisState

omit [AbstractValue V] in
theorem initialFrame_holds {owner : BinaryName} {method : Method} {maxLocals : Nat}
    {maxStack : Option Nat} {entry : Frame V} (typed : ∀ type, allowed (domain.valueOf type))
    (entered : initialFrame domain owner method maxLocals maxStack = .ok entry) :
    entry.Holds allowed := by
  obtain ⟨-, rfl⟩ := initialFrame_eq_ok.mp entered
  have parameters (types : List FieldType) :
      ∀ value ∈ parameterLocals domain types, allowed value := by
    induction types with
    | nil => simp [parameterLocals]
    | cons type rest ih =>
      simp only [parameterLocals, List.forall_mem_cons]
      refine ⟨typed _, ?_⟩
      split
      · exact List.forall_mem_cons.mpr ⟨typed none, ih⟩
      · exact ih
  refine ⟨fun value member => ?_, by simp [Frame.entry, Frame.stackValues]⟩
  simp only [Frame.entry, Method.entryValues, List.mem_append, List.mem_replicate] at member
  rcases member with (receiver | parameter) | ⟨-, rfl⟩
  · split at receiver
    · cases receiver
    · cases List.mem_singleton.mp receiver
      exact typed _
  · exact parameters _ value parameter
  · exact typed none

end MethodFlow
