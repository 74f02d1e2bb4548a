import MethodFlow.Proofs.Analysis.CallSites
import MethodFlow.Proofs.Analysis.Falling
import MethodFlow.Proofs.Analysis.Usage
import MethodFlow.Proofs.Code.Failing
import MethodFlow.Proofs.Code.Labelling
import MethodFlow.Proofs.Domain.Failing

/-! An analysis stays within the code once its points are marked. Frames are only at indices of any
closed set that the first one is in, and a `ret` hands back to calls that have one, so that it too
leads to where marking has been. -/

namespace MethodFlow

open Relation (ReflTransGen)

variable {flow : Flow}

namespace AnalysisState

variable {V : Type} {reached : Nat → Prop}

/-- Every index that has a frame is one of a set. -/
def FramedIn (reached : Nat → Prop) (state : AnalysisState V) : Prop :=
  ∀ index frame, state.frame? index = some frame → reached index

theorem FramedIn.next? {state popped : AnalysisState V} {index : Nat}
    (framedIn : state.FramedIn reached) (taken : state.next? = some (index, popped)) :
    popped.FramedIn reached := by
  intro other frame found
  rw [frame?, (known_next? taken).1] at found
  exact framedIn other frame found

variable [AbstractValue V] {domain : Domain V} {shape : FrameShape V} {visit : Visit V}
  {now next : AnalysisState V} {target : Nat}

/-- From an index in a closed set, everything is sent to one in it. A `ret` goes past a call that has
a frame. -/
theorem Sends.closed (closed : flow.Closed reached) (valid : visit.Valid flow shape)
    (own : reached visit.index) (framedIn : now.FramedIn reached) {sent : Frame V}
    {record : Option Subroutine}
    (sends : Sends domain shape.maxLocals visit now target sent record) : reached target := by
  have onward (leads : target ∈ visit.point.onward visit.index) : reached target :=
    closed.onward _ _ _ own valid.pointed leads
  cases sends with
  | onward _ successor => exact onward (Point.mem_onward.mpr (.inl successor))
  | call calls => exact closed.called _ _ own (Flow.called?_of_call valid.pointed calls)
  | handler member => exact onward (Point.mem_onward.mpr (.inr (.inl ⟨_, member⟩)))
  | back returns inside member found =>
    rename_i labelled slot caller returning callerFrame
    obtain ⟨earlier, recorded, callers, -⟩ := usedBy_marks inside
    obtain ⟨start, -, called⟩ := (valid.coherent.records _ _ recorded).entered
    obtain ⟨labelled, handlers, pointed⟩ := Flow.call_of_called? (called caller (callers ▸ member))
    exact closed.onward caller _ _ (framedIn caller callerFrame found) pointed
      (Point.mem_onward.mpr (.inr (.inr ⟨rfl, rfl⟩)))

theorem Touches.framedIn (closed : flow.Closed reached) (narrows : domain.Narrows)
    (valid : visit.Valid flow shape) (own : reached visit.index) (coherent : now.Coherent flow shape)
    (framedIn : now.FramedIn reached) (touches : Touches domain shape.maxLocals visit now next) :
    next.FramedIn reached := by
  cases touches with
  | merge sends merged =>
    obtain ⟨fits, recorded⟩ := sends.fits valid coherent
    obtain ⟨inside, -, merged, changed, -, rfl⟩ := coherent.merge narrows fits recorded merged
    intro index frame found
    rw [frame?_updated (coherent.frames_length ▸ inside)] at found
    split at found
    · rename_i same
      exact same ▸ sends.closed closed valid own framedIn
    · exact framedIn index frame found
  | requeue calls member =>
    intro index frame found
    rw [frame?_enqueue] at found
    exact framedIn index frame found
  | register returns inside started => exact framedIn

variable {start state popped : AnalysisState V} {count : Nat}

theorem Run.framedIn (closed : flow.Closed reached) (narrows : domain.Narrows)
    (coherent : start.Coherent flow shape) (framedIn : start.FramedIn reached)
    (run : Run domain flow shape.maxLocals start count state) : state.FramedIn reached :=
  (run.keeps (rises_any domain shape) narrows (fun taken framedIn => framedIn.next? taken)
    (fun valid _ before coherent _ framedIn touches =>
      touches.framedIn closed narrows valid (before _ _ valid.found) coherent framedIn)
    coherent framedIn).2

/-- Somewhere in a run, an index that is visited sends something to an index for it to be merged
there. -/
structure MergesAt (domain : Domain V) (flow : Flow) (maxLocals : Nat) (start : AnalysisState V)
    (target : Nat) (visit : Visit V) (now : AnalysisState V) : Prop where
  run : ∃ count state, Run domain flow maxLocals start count state ∧
    state.next? = some (visit.index, visit.before)
  found : visit.before.frame? visit.index = some visit.frame
  pointed : flow[visit.index]? = some visit.point
  executed : visit.point.action.effect domain visit.index visit.frame = .ok visit.after
  steps : ReflTransGen (Touches domain maxLocals visit) visit.before now
  sends : ∃ sent record, Sends domain maxLocals visit now target sent record

namespace MergesAt

variable (merges : MergesAt domain flow shape.maxLocals start target visit now)

include merges

theorem valid (narrows : domain.Narrows) (coherent : start.Coherent flow shape) :
    visit.Valid flow shape := by
  obtain ⟨count, state, run, taken⟩ := merges.run
  have coherent' := (run.coherent narrows coherent).next? taken
  exact ⟨coherent', merges.pointed, merges.found,
    fits_of_effect (coherent'.fits _ _ merges.found) merges.executed⟩

theorem coherent (narrows : domain.Narrows) (coherent : start.Coherent flow shape) :
    now.Coherent flow shape := by
  have valid := merges.valid narrows coherent
  have rises := rises_any domain shape
  exact (steps_grow rises narrows valid valid.coherent (.refl rises visit.before) merges.steps).1

theorem closed (closed : flow.Closed reached) (narrows : domain.Narrows)
    (coherent : start.Coherent flow shape) (framedIn : start.FramedIn reached) : reached target := by
  have valid := merges.valid narrows coherent
  obtain ⟨count, state, run, taken⟩ := merges.run
  obtain ⟨sent, record, sends⟩ := merges.sends
  have before : visit.before.FramedIn reached :=
    (run.framedIn closed narrows coherent framedIn).next? taken
  have own : reached visit.index := before _ _ valid.found
  exact sends.closed closed valid own (steps_keep narrows valid
    (fun coherent framedIn touches => touches.framedIn closed narrows valid own coherent framedIn)
    before merges.steps)

end MergesAt

end AnalysisState

/-- A fault other than that of control that runs off the end. -/
abbrev NotFallOffEnd (fault : Fault) : Prop := fault ≠ .fallOffEnd

variable {V : Type} [AbstractValue V] {domain : Domain V} {reached : Nat → Prop}

/-- Values know nothing of the end of the code, and operations on frames neither. -/
theorem Fault.notFallOffEnd_of_operands {fault : Fault} (operands : fault.isOfOperands = true) :
    NotFallOffEnd fault := by
  rintro rfl
  cases operands

theorem Domain.Policy.effect_failsOnly (policy : domain.Policy) (index : Nat) (action : Action)
    (frame : Frame V) : FailsOnly NotFallOffEnd (action.effect domain index frame) := by
  rcases action.idle_or_executes with rfl | ⟨operation, executes⟩
  · exact .ok frame
  · rw [executes]
    have confines : Frame.Confines domain ⟨index, operation⟩ NotFallOffEnd fun _ => True := by
      refine ⟨⟨fun _ _ => ⟨trivial, trivial⟩, fun _ _ _ => trivial, fun _ _ => trivial⟩,
        (policy.answers _).mono fun _ => Fault.notFallOffEnd_of_operands, ?_,
        fun _ _ => Frame.push_failsOnly fun _ => nofun, fun _ _ _ => nofun⟩
      rintro _ stack rfl
      cases stack
    exact confines.execute trivial

/-- From a start in a closed set of points, the loop never comes to the end of the code. -/
theorem AnalysisState.solve_ne_fallOffEnd (policy : domain.Policy) (closed : flow.Closed reached)
    {shape : FrameShape V} {start : AnalysisState V} (coherent : start.Coherent flow shape)
    (framedIn : start.FramedIn reached) (steps : Nat) :
    FailsOnly (fun stopped => stopped.failure.Within NotFallOffEnd)
      (start.solve domain flow shape.maxLocals steps) := by
  have narrows : domain.Narrows := Domain.Shrinks.narrows policy.shrinks
  refine solve_failsOnly fun count stopped ends => ?_
  cases ends with
  | @stopped _ state popped index _ run taken failed =>
    refine FailsOnly.allows ?_ stopped failed
    apply process_failsOnly
    · exact fun point frame _ _ => policy.effect_failsOnly index point.action frame
    · nofun
    · exact fun _ frame _ handler _ _ _ => Frame.push_failsOnly fun _ => nofun
    · intro point frame after found pointed executed now target sent record steps sends
      have merges : MergesAt domain flow shape.maxLocals start target
          ⟨popped, index, point, frame, after⟩ now :=
        ⟨⟨_, state, run, taken⟩, found, pointed, executed, steps, sent, record, sends⟩
      have length := (merges.coherent narrows coherent).frames_length
      have inside := closed.inside target (merges.closed closed narrows coherent framedIn)
      refine merge_failsOnly (joinFrame_failsOnly ?_ (fun _ _ => nofun) _ _) fun outside => ?_
      · exact fun old new => (policy.merge_failsOnly old new).mono fun _ => Fault.notFallOffEnd_of_operands
      · exact absurd inside (Nat.not_lt_of_le (length ▸ outside))

variable {owner : BinaryName} {method : Method} {entry : Frame V} {start : AnalysisState V}
  {maxLocals : Nat} {maxStack : Option Nat}

omit [AbstractValue V] in
theorem initialFrame_failsOnly : FailsOnly (fun located => NotFallOffEnd located.fault)
    (initialFrame domain owner method maxLocals maxStack) := by
  rw [initialFrame_eq]
  split
  · exact .error nofun
  · exact .ok _

theorem Prepared.framedIn (narrows : domain.Narrows)
    (prepared : Prepared domain owner method maxLocals maxStack flow entry start)
    (first : reached 0) : start.FramedIn reached := by
  intro index frame found
  obtain ⟨rfl, -⟩ := ((prepared.isStart narrows).frames index frame).mp found
  exact first

/-- Where control cannot run off the end, no analysis comes to it. -/
theorem analyzeWithin_ne_fallOffEnd (policy : domain.Policy) (stays : ¬method.FallsOff) :
    FailsOnly (·.Within NotFallOffEnd)
      (analyzeWithin domain owner method maxLocals maxStack).result := by
  apply result_failsOnly
  · refine method.flow_failsOnly.mono fun _ labels => .fault ?_
    intro falls
    rw [falls] at labels
    cases labels
  · intro flow flowed
    obtain ⟨table, resolved⟩ := Method.resolved_of_flow flowed
    exact ⟨fun fault failed => absurd (resolved.subroutines_eq_error.mp failed).1 stays⟩
  · exact initialFrame_failsOnly.mono fun _ fine => .fault fine
  · intro flow entry start prepared
    obtain ⟨table, resolved⟩ := Method.resolved_of_flow prepared.resolved
    have narrows : domain.Narrows := Domain.Shrinks.narrows policy.shrinks
    exact AnalysisState.solve_ne_fallOffEnd policy (resolved.closed_of_not_fallsOff stays)
      (prepared.isStart narrows).coherent (prepared.framedIn narrows .refl) _

/-- An analysis under any policy fails with control that runs off the end exactly if the nodes allow
it, while the points are marked. Once they are, nothing is merged outside of the code. -/
theorem fallOffEnd_exact (policy : domain.Policy) (labelled : method.Labelled)
    (code : method.flags.hasNoCode = false) (owner : BinaryName) (maxLocals : Nat)
    (maxStack : Option Nat) :
    ∃ flow, method.flow = .ok flow ∧
      (∀ fault, flow.subroutines maxLocals = .error fault ↔
        method.FallsOff ∧ fault = Fault.fallOffEnd.at (method.nodes.length - 1)) ∧
      (∀ index, (analyzeWithin domain owner method maxLocals maxStack).result =
          .error (.fault (Fault.fallOffEnd.at index)) ↔
        method.FallsOff ∧ index = method.nodes.length - 1) ∧
      ∀ entry start, Prepared domain owner method maxLocals maxStack flow entry start →
        ∀ target visit now, AnalysisState.MergesAt domain flow maxLocals start target visit now →
          target < method.nodes.length := by
  obtain ⟨flow, flowed⟩ := labelled.flow_ok
  obtain ⟨table, resolved⟩ := Method.resolved_of_flow flowed
  refine ⟨flow, flowed, fun fault => resolved.subroutines_eq_error, fun index => ?_, ?_⟩
  · have ends (falls : method.FallsOff) :
        (analyzeWithin domain owner method maxLocals maxStack).result =
          .error (.fault (Fault.fallOffEnd.at (method.nodes.length - 1))) := by
      have failed : flow.subroutines maxLocals =
          .error (Fault.fallOffEnd.at (method.nodes.length - 1)) :=
        resolved.subroutines_eq_error.mpr ⟨falls, rfl⟩
      rw [result_of_code code]
      simp [settle, flowed, failed, Except.mapError, bind, Except.bind]
    constructor
    · intro failed
      by_cases falls : method.FallsOff
      · cases (ends falls).symm.trans failed
        exact ⟨falls, rfl⟩
      · exact absurd rfl ((analyzeWithin_ne_fallOffEnd policy falls).allows _ failed _ rfl)
    · rintro ⟨falls, rfl⟩
      exact ends falls
  · intro entry start prepared target visit now merges
    have narrows : domain.Narrows := Domain.Shrinks.narrows policy.shrinks
    have stays : ¬method.FallsOff := by
      intro falls
      obtain ⟨marks, marked, -⟩ := prepared.started
      cases marked.symm.trans (resolved.subroutines_eq_error.mpr ⟨falls, rfl⟩)
    have closed := resolved.closed_of_not_fallsOff stays
    exact resolved.length ▸ closed.inside target (merges.closed closed narrows
      (prepared.isStart narrows).coherent (prepared.framedIn narrows .refl))

/-- Calls a subroutine that never returns, and has nothing after the call. -/
def lastCall : Method where
  flags := .static
  name := ⟨"last".toList, by decide⟩
  descriptor := ⟨[], none⟩
  nodes := [.branch (.goto ⟨1⟩), .label ⟨0⟩, .branch (.goto ⟨0⟩), .label ⟨1⟩, .branch (.jsr ⟨0⟩)]
  handlers := []
  maxStack := 1
  maxLocals := 0

def lastCallFlow : Flow :=
  [⟨.branch (.goto ⟨1⟩) (.goto 3), []⟩, ⟨.idle, []⟩, ⟨.branch (.goto ⟨0⟩) (.goto 1), []⟩, ⟨.idle, []⟩,
    ⟨.branch (.jsr ⟨0⟩) (.jsr 1), []⟩]

/-- Control is taken to go past the last call, though it never comes back; past the calls of a
subroutine that returns, there is code. -/
theorem lastCall_fallsOff :
    (lastCall.FallsOff ∧ (analyzeWithin ValueKind.verifier .object lastCall 0 (some 1)).result =
      .error (.fault (Fault.fallOffEnd.at 4))) ∧
    ¬twoCalls.FallsOff ∧ ∃ flow entry start,
      Prepared ValueKind.verifier .object twoCalls 2 (some 1) flow entry start ∧
        ∀ target visit now, AnalysisState.MergesAt ValueKind.verifier flow 2 start target visit now →
          target < 10 := by
  constructor
  · have flowed : lastCall.flow = .ok lastCallFlow := by cbv
    obtain ⟨-, -, -, result, -⟩ :=
      fallOffEnd_exact ValueKind.verifier_policy (Method.labelled_of_flow flowed) rfl .object 0
        (some 1)
    have jumps : lastCall.MayGo 0 3 := .edge (.onward (.jump rfl List.mem_cons_self rfl))
    have steps : lastCall.MayGo 3 4 := .edge (.onward (.next rfl rfl))
    have falls : lastCall.FallsOff :=
      .inr ⟨_, rfl, .inr ⟨_, rfl⟩, .tail (.tail .refl jumps) steps⟩
    exact ⟨falls, (result 4).mpr ⟨falls, rfl⟩⟩
  · obtain ⟨start, final, count, prepared, -⟩ := twoCalls_run
    obtain ⟨flow, flowed, failing, -, within⟩ := fallOffEnd_exact ValueKind.verifier_policy
      (Method.labelled_of_flow prepared.resolved) rfl .object 2 (some 1)
    cases flowed.symm.trans prepared.resolved
    refine ⟨fun falls => ?_, _, _, start, prepared, within _ start prepared⟩
    cases ((failing _).mpr ⟨falls, rfl⟩).symm.trans twoCalls_marks

end MethodFlow
