import MethodFlow.Proofs.Analysis.Usage

namespace MethodFlow

variable {V : Type} {flow : Flow}

namespace AnalysisState

/-- An index got its frame from others, the first one from the entry of the method. -/
inductive Derived (flow : Flow) (state : AnalysisState V) : Nat → Prop where
  | entry : Derived flow state 0
  | onward {index target : Nat} {point : Point} {frame : Frame V}
      (derived : Derived flow state index) (found : state.frame? index = some frame)
      (pointed : flow[index]? = some point) (plain : point.action.isPlain = true)
      (successor : target ∈ point.action.successors index) : Derived flow state target
  | call {index target : Nat} {frame : Frame V} (derived : Derived flow state index)
      (found : state.frame? index = some frame) (called : flow.called? index = some target) :
      Derived flow state target
  | back {call ret : Nat} {caller frame : Frame V} {record : Subroutine}
      (derived : Derived flow state call) (found : state.frame? call = some caller)
      (derived' : Derived flow state ret) (found' : state.frame? ret = some frame)
      (returns : flow.IsReturn ret) (recorded : state.subroutine? ret = some record)
      (member : call ∈ record.callers) : Derived flow state (call + 1)
  | handler {index target : Nat} {point : Point} {handler : ExceptionHandler} {frame : Frame V}
      (derived : Derived flow state index) (found : state.frame? index = some frame)
      (pointed : flow[index]? = some point) (member : (target, handler) ∈ point.handlers) :
      Derived flow state target

variable {above : Frame V → Frame V → Prop} {before after : AnalysisState V} {index : Nat}

theorem Derived.gain (gains : Gains above before after) (derived : Derived flow before index) :
    Derived flow after index := by
  induction derived with
  | entry => exact .entry
  | onward _ found pointed plain successor ih =>
    obtain ⟨_, found', -⟩ := gains.frames _ _ found
    exact .onward ih found' pointed plain successor
  | call _ found called ih =>
    obtain ⟨_, found', -⟩ := gains.frames _ _ found
    exact .call ih found' called
  | back _ found _ found' returns recorded member ih ih' =>
    obtain ⟨_, present, -⟩ := gains.frames _ _ found
    obtain ⟨_, present', -⟩ := gains.frames _ _ found'
    obtain ⟨_, recorded', later⟩ := gains.records _ _ recorded
    exact .back ih present ih' present' returns recorded' (later.callers _ member)
  | handler _ found pointed member ih =>
    obtain ⟨_, found', -⟩ := gains.frames _ _ found
    exact .handler ih found' pointed member

section Runs

variable [AbstractValue V] {domain : Domain V} {shape : FrameShape V} {visit : Visit V}
  {now next start final : AnalysisState V} {entry : Frame V} {count : Nat}

/-- Every index that has a frame was led to. -/
def Sourced (flow : Flow) (state : AnalysisState V) : Prop :=
  ∀ index frame, state.frame? index = some frame → Derived flow state index

theorem Sends.derived (valid : visit.Valid flow shape) (gains : Gains above visit.before now)
    (sourced : Sourced flow now) {target : Nat} {sent : Frame V} {record : Option Subroutine}
    (sends : Sends domain shape.maxLocals visit now target sent record) :
    Derived flow now target := by
  obtain ⟨frame, found, -⟩ := gains.frames _ _ valid.found
  have own := sourced _ _ found
  cases sends with
  | onward plain successor => exact .onward own found valid.pointed plain successor
  | call calls => exact .call own found (Flow.called?_of_call valid.pointed calls)
  | back returns inside member found' =>
    rename_i labelled slot caller returning callerFrame
    obtain ⟨earlier, recorded, callers, -⟩ := usedBy_marks inside
    obtain ⟨_, recorded', later⟩ := gains.records _ _ recorded
    have ret : flow.IsReturn visit.index :=
      ⟨labelled, slot, visit.point.handlers, by rw [← returns]; exact valid.pointed⟩
    exact .back (sourced _ _ found') found' own found ret recorded'
      (later.callers _ (callers ▸ member))
  | handler member pushed => exact .handler own found valid.pointed member

theorem Touches.sourced (narrows : domain.Narrows) (valid : visit.Valid flow shape)
    (coherent : now.Coherent flow shape) (grown : Grows (fun _ _ => True) visit.before now)
    (sourced : Sourced flow now) (touches : Touches domain shape.maxLocals visit now next) :
    Sourced flow next := by
  obtain ⟨-, grown'⟩ := touches.grows (rises_any domain shape) narrows valid coherent grown
  intro index frame found
  cases touches with
  | merge sends merged =>
    obtain ⟨fits, recorded⟩ := sends.fits valid coherent
    obtain ⟨inside, -, own, changed, -, rfl⟩ := coherent.merge narrows fits recorded merged
    rw [frame?_updated (coherent.frames_length ▸ inside)] at found
    split at found
    · rename_i same
      subst same
      exact (sends.derived valid grown.toGains sourced).gain grown'.toGains
    · exact (sourced index frame found).gain grown'.toGains
  | requeue calls member =>
    rw [frame?_enqueue] at found
    exact (sourced index frame found).gain grown'.toGains
  | register returns inside started => exact (sourced index frame found).gain grown'.toGains

/-- When an analysis is done, every index that has a frame was led to. -/
theorem Run.sourced (narrows : domain.Narrows) (isStart : start.IsStart flow shape entry)
    (run : Run domain flow shape.maxLocals start count final) : Sourced flow final := by
  have rises := rises_any domain shape
  have next {state popped : AnalysisState V} {index : Nat}
      (taken : state.next? = some (index, popped)) (sourced : Sourced flow state) :
      Sourced flow popped := by
    intro other frame found
    rw [frame?, (known_next? taken).1] at found
    exact (sourced other frame found).gain (Gains.next? rises taken)
  have first : Sourced flow start := by
    intro index frame found
    obtain ⟨rfl, -⟩ := (isStart.frames index frame).mp found
    exact .entry
  exact (run.keeps rises narrows next (fun valid _ _ coherent grown sourced touches =>
    touches.sourced narrows valid coherent grown sourced) isStart.coherent first).2

end Runs

end AnalysisState

end MethodFlow
