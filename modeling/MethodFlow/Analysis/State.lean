import MethodFlow.Analysis.Event
import MethodFlow.Analysis.Reach
import MethodFlow.Frame.Execute

/-! The state of an analysis under way, and its one way of growing: merging a frame into the one at
an index, which puts the index on the worklist if anything changed there. -/

namespace MethodFlow

/-- Points from which a subroutine was left: pairs of its start and the index of the `ret`, the
latter ascending. -/
abbrev Returns := List (Nat × Nat)

/-- Adds a return, unless it is there. -/
def Returns.add (start index : Nat) : Returns → Returns
  | [] => [(start, index)]
  | (start', index') :: rest =>
    if index < index' then (start, index) :: (start', index') :: rest
    else if index = index' ∧ start = start' then (start', index') :: rest
    else (start', index') :: Returns.add start index rest

/-- The returns from a subroutine, ascending. -/
def Returns.from (returns : Returns) (start : Nat) : List Nat :=
  (returns.filter fun entry => entry.1 = start).map Prod.snd

structure AnalysisState (V : Type) where
  /-- The frame at every index that was reached. -/
  frames : List (Option (Frame V))
  /-- The record at every index inside a subroutine. -/
  subroutines : Marks
  returns : Returns
  /-- Indices to process, the next one first. -/
  worklist : List Nat
  /-- Which indices are on the worklist. -/
  queued : List Bool
  /-- How many indices were taken off the worklist. -/
  processed : Nat
  /-- What was reported, the latest first. -/
  events : List Event

/-- Why an analysis stops without a result. -/
inductive AnalysisFailure where
  | fault (located : LocatedFault)
  /-- The worklist was not empty after as many steps as the domain allows for. -/
  | unsettled
deriving DecidableEq

/-- An analysis that has stopped, with what it reported, the latest first. -/
structure Stopped where
  failure : AnalysisFailure
  events : List Event

namespace AnalysisState

variable {V : Type}

/-- Nothing is reached yet. -/
def initial (subroutines : Marks) (events : List Event) : AnalysisState V :=
  ⟨List.replicate subroutines.length none, subroutines, [], [],
    List.replicate subroutines.length false, 0, events⟩

/-- The frame at an index that was reached. -/
def frame? (state : AnalysisState V) (index : Nat) : Option (Frame V) :=
  (state.frames[index]?).join

/-- The record at an index inside a subroutine. -/
def subroutine? (state : AnalysisState V) (index : Nat) : Option Subroutine :=
  (state.subroutines[index]?).join

def report (state : AnalysisState V) (event : Event) : AnalysisState V :=
  { state with events := event :: state.events }

/-- Stops with a fault at an index. -/
def stop (state : AnalysisState V) (index : Nat) (fault : Fault) : Stopped :=
  ⟨.fault (fault.at index), state.events⟩

/-- Carries on with a value, or stops with a fault at an index. -/
def check {α : Type} (state : AnalysisState V) (index : Nat) : Except Fault α → Except Stopped α
  | .ok value => .ok value
  | .error fault => .error (state.stop index fault)

/-- Puts an index on the worklist unless it is there. -/
def enqueue (state : AnalysisState V) (index : Nat) : AnalysisState V :=
  if state.queued[index]?.getD true then state
  else
    { state with queued := state.queued.set index true, worklist := index :: state.worklist }

/-- Takes the next index off the worklist. -/
def next? (state : AnalysisState V) : Option (Nat × AnalysisState V) :=
  match state.worklist with
  | [] => none
  | index :: rest =>
    some (index,
      { state with
        worklist := rest
        queued := state.queued.set index false
        processed := state.processed + 1
        events := .processing index :: state.events })

/-- The record at an index with another one merged in, and whether it changed. -/
def joinSubroutine : Option Subroutine → Option Subroutine → Option Subroutine × Bool
  | old, none => (old, false)
  | none, some new => (some new, true)
  | some old, some new =>
    let (merged, changed) := old.merge new
    (some merged, changed)

variable [AbstractValue V]

/-- The frame at an index with another one merged in, and whether it changed. -/
def joinFrame (domain : Domain V) : Option (Frame V) → Frame V → Except Fault (Frame V × Bool)
  | none, frame => .ok (frame, true)
  | some old, frame => old.merge domain frame

/-- Merges a frame and a record into those at an index. Only falling through the last point leads
beyond the code. -/
def merge (domain : Domain V) (state : AnalysisState V) (index : Nat) (frame : Frame V)
    (subroutine : Option Subroutine) : Except Stopped (AnalysisState V) :=
  if index < state.frames.length then do
    let (merged, frameChanged) ← state.check index (joinFrame domain (state.frame? index) frame)
    let (record, recordChanged) := joinSubroutine (state.subroutine? index) subroutine
    let state :=
      { state with
        frames := state.frames.set index (some merged)
        subroutines := state.subroutines.set index record }
    return if frameChanged || recordChanged then (state.report (.changed index)).enqueue index
      else state
  else .error (state.stop (state.frames.length - 1) .fallOffEnd)

end AnalysisState

end MethodFlow
