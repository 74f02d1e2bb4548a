import MethodFlow.Proofs.Analysis.Processing
import MethodFlow.Proofs.Frame.Failing

namespace MethodFlow

open Relation (ReflTransGen)

variable {V : Type} [AbstractValue V] {domain : Domain V} {flow : Flow} {maxLocals : Nat}
  {allowed : Fault → Prop}

/-- The analysis has stopped for a fault that is allowed. -/
def Stopped.For (allowed : Fault → Prop) (stopped : Stopped) : Prop :=
  ∃ located, stopped.failure = .fault located ∧ allowed located.fault

/-- If the analysis has failed for a fault, it is one that is allowed. -/
def AnalysisFailure.Within (allowed : Fault → Prop) (failure : AnalysisFailure) : Prop :=
  ∀ located, failure = .fault located → allowed located.fault

theorem AnalysisFailure.Within.fault {located : LocatedFault} (fine : allowed located.fault) :
    (AnalysisFailure.fault located).Within allowed := by
  rintro _ ⟨⟩
  exact fine

theorem Stopped.For.within {stopped : Stopped} (caused : stopped.For allowed) :
    stopped.failure.Within allowed := by
  obtain ⟨located, failed, fine⟩ := caused
  rw [failed]
  exact .fault fine

namespace AnalysisState

variable {state : AnalysisState V} {index : Nat}

omit [AbstractValue V] in
theorem check_failsOnly {α : Type} {outcome : Except Fault α}
    (failsOnly : FailsOnly allowed outcome) :
    FailsOnly (Stopped.For allowed) (state.check index outcome) := by
  cases outcome with
  | ok value => exact .ok value
  | error fault => exact .error ⟨_, rfl, failsOnly.allows fault rfl⟩

theorem merge_failsOnly {frame : Frame V} {record : Option Subroutine}
    (joined : FailsOnly allowed (joinFrame domain (state.frame? index) frame))
    (outside : state.frames.length ≤ index → allowed .fallOffEnd) :
    FailsOnly (Stopped.For allowed) (state.merge domain index frame record) := by
  unfold merge
  split
  · exact (check_failsOnly joined).andThen fun _ => .ok _
  · rename_i missing
    exact .error ⟨_, rfl, outside (Nat.le_of_not_lt missing)⟩

theorem joinFrame_failsOnly (merges : ∀ old new, FailsOnly allowed (domain.merge old new))
    (heights : ∀ expected found, allowed (.incompatibleStackHeights expected found))
    (old : Option (Frame V)) (frame : Frame V) : FailsOnly allowed (joinFrame domain old frame) := by
  cases old with
  | none => exact .ok _
  | some own => exact Frame.merge_failsOnly merges heights own frame

theorem executeAction_failsOnly {action : Action} {frame : Frame V}
    (effect : FailsOnly allowed (action.effect domain index frame)) :
    FailsOnly (Stopped.For allowed) (state.executeAction domain index action frame) := by
  have executed {site : Site} (failsOnly : FailsOnly allowed (frame.execute domain site)) :
      FailsOnly (Stopped.For allowed) (state.execute domain site frame) := by
    unfold execute
    split
    · exact .ok _
    · rename_i fault failed
      exact .error ⟨_, rfl, failsOnly.allows fault failed⟩
  cases action with
  | idle => exact .ok frame
  | instruction | branch => exact executed effect

/-- Whatever an index sends on while it is processed is merged, or stops the analysis for a fault
that is allowed. -/
def SendsOnly (domain : Domain V) (maxLocals : Nat) (visit : Visit V) (allowed : Fault → Prop) :
    Prop :=
  ∀ now target sent record, ReflTransGen (Touches domain maxLocals visit) visit.before now →
    Sends domain maxLocals visit now target sent record →
      FailsOnly (Stopped.For allowed) (now.merge domain target sent record)

namespace SendsOnly

variable {visit : Visit V} {first : AnalysisState V}

theorem mergeAll (sendsOnly : SendsOnly domain maxLocals visit allowed)
    (steps : ReflTransGen (Touches domain maxLocals visit) visit.before first)
    (plain : visit.point.action.isPlain = true) {targets : List Nat}
    (successors : ∀ target ∈ targets, target ∈ visit.point.action.successors visit.index) :
    FailsOnly (Stopped.For allowed) (first.mergeAll domain visit.after visit.record targets) := by
  induction targets generalizing first with
  | nil => exact .ok _
  | cons target rest ih =>
    rw [List.forall_mem_cons] at successors
    have sends : Sends domain maxLocals visit first target visit.after visit.record :=
      .onward plain successors.1
    exact (sendsOnly _ _ _ _ steps sends).bind fun next merged =>
      ih (steps.tail (.merge sends merged)) successors.2

theorem leaveTo (sendsOnly : SendsOnly domain maxLocals visit allowed)
    (steps : ReflTransGen (Touches domain maxLocals visit) visit.before first)
    {labelled : Branch Label} {slot : Nat}
    (returns : visit.point.action = .branch labelled (.ret slot)) {returning : Subroutine}
    (inside : visit.record = some returning) {callers : List Nat}
    (members : ∀ caller ∈ callers, caller ∈ returning.callers) :
    FailsOnly (Stopped.For allowed) (first.leaveTo domain visit.after returning.used callers) := by
  induction callers generalizing first with
  | nil => exact .ok _
  | cons caller rest ih =>
    rw [List.forall_mem_cons] at members
    unfold AnalysisState.leaveTo
    split
    · exact (FailsOnly.ok first).bind fun _ same => by
        cases same
        exact ih steps members.2
    · rename_i callerFrame found
      have sends : Sends domain maxLocals visit first (caller + 1)
          (visit.after.mergeSubroutine callerFrame returning.used) (first.subroutine? caller) :=
        .back returns inside members.1 found
      exact (sendsOnly _ _ _ _ steps sends).bind fun next merged =>
        ih (steps.tail (.merge sends merged)) members.2

theorem flowToHandlers (sendsOnly : SendsOnly domain maxLocals visit allowed)
    (steps : ReflTransGen (Touches domain maxLocals visit) visit.before first)
    (caught : ∀ target handler, (target, handler) ∈ visit.point.handlers →
      FailsOnly allowed (visit.frame.clearStack.push (domain.exception handler.caught)))
    {handlers : List (Nat × ExceptionHandler)}
    (members : ∀ entry ∈ handlers, entry ∈ visit.point.handlers) :
    FailsOnly (Stopped.For allowed)
      (first.flowToHandlers domain visit.index visit.frame visit.record handlers) := by
  induction handlers generalizing first with
  | nil => exact .ok _
  | cons entry rest ih =>
    obtain ⟨target, handler⟩ := entry
    rw [List.forall_mem_cons] at members
    refine (check_failsOnly (caught target handler members.1)).bind fun pushed checked => ?_
    have fits : visit.frame.clearStack.push (domain.exception handler.caught) = .ok pushed :=
      check_eq_ok.mp checked
    have sends : Sends domain maxLocals visit first target pushed visit.record :=
      .handler members.1 fits
    exact (sendsOnly _ _ _ _ steps sends).bind fun next merged =>
      ih (steps.tail (.merge sends merged)) members.2

theorem flowOn (sendsOnly : SendsOnly domain maxLocals visit allowed)
    (stray : allowed .retOutsideSubroutine) :
    FailsOnly (Stopped.For allowed) (visit.before.flowOn domain maxLocals visit.index
      visit.point.action visit.after visit.record) := by
  unfold AnalysisState.flowOn
  split
  · rename_i labelled target calls
    exact (sendsOnly _ _ _ _ .refl (.call calls)).andThen fun _ => .ok _
  · rename_i labelled slot returns
    unfold AnalysisState.leave
    split
    · exact .error ⟨_, rfl, stray⟩
    · rename_i returning inside
      cases started : returning.start with
      | none => exact sendsOnly.leaveTo .refl returns inside fun _ member => member
      | some start =>
        exact sendsOnly.leaveTo (.single (.register returns inside started)) returns inside
          fun _ member => member
  · rename_i notCall notReturn
    exact sendsOnly.mergeAll .refl (Action.plain_of_ne notCall notReturn) fun _ member => member

end SendsOnly

/-- Processing an index stops only for faults that are allowed if everything that it does fails only
with such faults. -/
theorem process_failsOnly {before : AnalysisState V}
    (effect : ∀ point frame, before.frame? index = some frame → flow[index]? = some point →
      FailsOnly allowed (point.action.effect domain index frame))
    (stray : allowed .retOutsideSubroutine)
    (caught : ∀ point frame target handler, before.frame? index = some frame →
      flow[index]? = some point → (target, handler) ∈ point.handlers →
        FailsOnly allowed (frame.clearStack.push (domain.exception handler.caught)))
    (sendsOnly : ∀ point frame after, before.frame? index = some frame →
      flow[index]? = some point → point.action.effect domain index frame = .ok after →
        SendsOnly domain maxLocals ⟨before, index, point, frame, after⟩ allowed) :
    FailsOnly (Stopped.For allowed) (before.process domain flow maxLocals index) := by
  unfold process
  split
  · rename_i frame point found pointed
    refine (executeAction_failsOnly (effect point frame found pointed)).bind
      fun after executed => ?_
    let visit : Visit V := ⟨before, index, point, frame, after⟩
    have sends : SendsOnly domain maxLocals visit allowed :=
      sendsOnly point frame after found pointed (executeAction_eq_ok.mp executed)
    refine FailsOnly.bind (sends.flowOn stray) fun middle flowed => ?_
    exact sends.flowToHandlers (flowOn_eq_ok flowed).steps
      (fun target handler => caught point frame target handler found pointed)
      fun _ member => member
  · exact .ok _

end AnalysisState

end MethodFlow
