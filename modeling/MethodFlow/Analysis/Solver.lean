import MethodFlow.Analysis.State

namespace MethodFlow

namespace AnalysisState

variable {V : Type} [AbstractValue V]

/-- Executes an operation on the frame at its index. A mismatch goes to the log. -/
def execute (domain : Domain V) (state : AnalysisState V) (site : Site) (frame : Frame V) :
    Except Stopped (Frame V) :=
  match frame.execute domain site with
  | .ok after => .ok after
  | .error fault =>
    .error ⟨.fault (fault.at site.index), Event.ofFault site fault ++ state.events⟩

/-- Merges a frame and a record into those at each of some indices. -/
def mergeAll (domain : Domain V) (state : AnalysisState V) (frame : Frame V)
    (subroutine : Option Subroutine) : List Nat → Except Stopped (AnalysisState V)
  | [] => .ok state
  | index :: rest => do
    let state ← state.merge domain index frame subroutine
    state.mergeAll domain frame subroutine rest

/-- Enters a subroutine from a call. Where it is left, the locals of this call may be needed. -/
def enter (domain : Domain V) (maxLocals : Nat) (state : AnalysisState V) (index target : Nat)
    (frame : Frame V) : Except Stopped (AnalysisState V) := do
  let state ← state.merge domain target frame (some (.fresh (some target) maxLocals (some index)))
  return (state.returns.from target).foldl enqueue state

/-- Leaves a subroutine for each of its callers. The locals that it did not use are those of the
caller. -/
def leaveTo (domain : Domain V) (state : AnalysisState V) (frame : Frame V) (used : List Bool) :
    List Nat → Except Stopped (AnalysisState V)
  | [] => .ok state
  | caller :: rest => do
    let state ←
      match state.frame? caller with
      | none => pure state
      | some callerFrame =>
        state.merge domain (caller + 1) (frame.mergeSubroutine callerFrame used)
          (state.subroutine? caller)
    state.leaveTo domain frame used rest

/-- Leaves the subroutine that an index lies in. -/
def leave (domain : Domain V) (state : AnalysisState V) (index : Nat) (frame : Frame V)
    (subroutine : Option Subroutine) : Except Stopped (AnalysisState V) :=
  match subroutine with
  | none => .error (state.stop index .retOutsideSubroutine)
  | some returning =>
    let state :=
      match returning.start with
      | some start => { state with returns := state.returns.add start index }
      | none => state
    state.leaveTo domain frame returning.used returning.callers

/-- The record after an action, which has used the locals it reads or writes. -/
def usedBy (action : Action) (subroutine : Option Subroutine) : Option Subroutine :=
  match action with
  | .instruction i =>
    match i.localAccess? with
    | some (slot, width) => subroutine.map fun record => record.useFrom slot width
    | none => subroutine
  | .branch _ (.ret slot) => subroutine.map fun record => record.use slot
  | _ => subroutine

/-- The frame after an action. -/
def executeAction (domain : Domain V) (state : AnalysisState V) (index : Nat) (action : Action)
    (frame : Frame V) : Except Stopped (Frame V) :=
  match action with
  | .idle => .ok frame
  | .instruction i => state.execute domain ⟨index, .instruction i⟩ frame
  | .branch labelled _ => state.execute domain ⟨index, .branch labelled⟩ frame

/-- Passes the frame after an action on to where control goes. -/
def flowOn (domain : Domain V) (maxLocals : Nat) (state : AnalysisState V) (index : Nat)
    (action : Action) (frame : Frame V) (subroutine : Option Subroutine) :
    Except Stopped (AnalysisState V) :=
  match action with
  | .branch _ (.jsr target) => state.enter domain maxLocals index target frame
  | .branch _ (.ret _) => state.leave domain index frame subroutine
  | _ => state.mergeAll domain frame subroutine (action.successors index)

/-- Passes the frame before an operation on to the handlers of an index: exceptions are thrown
before the operation has had any effect. -/
def flowToHandlers (domain : Domain V) (state : AnalysisState V) (index : Nat) (frame : Frame V)
    (subroutine : Option Subroutine) :
    List (Nat × ExceptionHandler) → Except Stopped (AnalysisState V)
  | [] => .ok state
  | (target, handler) :: rest => do
    let caught ←
      state.check index (frame.clearStack.push (domain.exception handler.caught))
    let state ← state.merge domain target caught subroutine
    state.flowToHandlers domain index frame subroutine rest

/-- Processes an index: its action, then its handlers. -/
def process (domain : Domain V) (flow : Flow) (maxLocals : Nat) (state : AnalysisState V)
    (index : Nat) : Except Stopped (AnalysisState V) :=
  match state.frame? index, flow[index]? with
  | some frame, some point => do
    let after ← state.executeAction domain index point.action frame
    let subroutine := usedBy point.action (state.subroutine? index)
    let state ← state.flowOn domain maxLocals index point.action after subroutine
    state.flowToHandlers domain index frame subroutine point.handlers
  | _, _ => .ok state

/-- Processes indices until the worklist is empty, at most so many of them. -/
def solve (domain : Domain V) (flow : Flow) (maxLocals : Nat) :
    Nat → AnalysisState V → Except Stopped (AnalysisState V)
  | steps, state =>
    match state.next? with
    | none => .ok state
    | some (index, state) =>
      match steps with
      | 0 => .error ⟨.unsettled, state.events⟩
      | steps + 1 => do
        let state ← state.process domain flow maxLocals index
        solve domain flow maxLocals steps state

end AnalysisState

end MethodFlow
