import MethodFlow.Code.Method
import MethodFlow.Code.Shown

namespace MethodFlow

/-- How much a reader of the log is meant to care. -/
inductive LogLevel where
  | trace
  | debug
  | error
deriving DecidableEq, Repr

def LogLevel.name : LogLevel → String
  | .trace => "TRACE"
  | .debug => "DEBUG"
  | .error => "ERROR"

/-- Something worth a line in the log. -/
inductive Event where
  /-- The analysis of a method starts. -/
  | started (owner : BinaryName) (name : UnqualifiedName) (descriptor : MethodDescriptor)
  /-- The analysis of a method with code has succeeded. -/
  | finished (owner : BinaryName) (name : UnqualifiedName) (reachable total processed : Nat)
  /-- An index is taken off the worklist. -/
  | processing (index : Nat)
  /-- A merge changed what is known at an index. -/
  | changed (index : Nat)
  /-- An operand is not what an operation needs. -/
  | mismatch (site : Site) (expected found : String)
deriving DecidableEq

namespace Event

def level : Event → LogLevel
  | started .. | finished .. => .debug
  | processing _ | changed _ => .trace
  | mismatch .. => .error

def message : Event → String
  | started owner name descriptor => s!"Analyzing {owner}.{name}{descriptor}"
  | finished owner name reachable total processed =>
    s!"Finished analyzing {owner}.{name} ({reachable} of {total} instructions reachable, " ++
      s!"{processed} processed)"
  | processing index => s!"Processing instruction {index}"
  | changed index => s!"Frame at instruction {index} changed"
  | mismatch site expected found =>
    s!"Instruction {site.index} ({site.operation.shown}): expected {expected}, but found {found}"

/-- The level and the message. -/
def line (event : Event) : String := event.level.name ++ " " ++ event.message

/-- What the fault of an operation adds to the log. -/
def ofFault (site : Site) : Fault → List Event
  | .mismatch _ expected found => [mismatch site expected found]
  | _ => []

end Event

end MethodFlow
