import MethodFlow.Code.Branch
import MethodFlow.Code.Label

/-! The entries of a method's code. Labels and line numbers take an index each and do nothing. -/

namespace MethodFlow

/-- What a node does when it runs. -/
inductive Operation where
  | instruction (i : Instruction)
  | branch (b : Branch Label)
deriving DecidableEq

/-- An entry of a method's code. -/
inductive Node where
  | label (label : Label)
  | line (number : Nat)
  | operation (operation : Operation)
deriving DecidableEq

/-- An operation at its index in the code. -/
structure Site where
  index : Nat
  operation : Operation
deriving DecidableEq

namespace Node

/-- The node of an instruction. -/
@[match_pattern] def instruction (i : Instruction) : Node := .operation (.instruction i)

/-- The node of a branch. -/
@[match_pattern] def branch (b : Branch Label) : Node := .operation (.branch b)

/-- The branch at a node, if it is one. -/
def branch? : Node → Option (Branch Label)
  | branch b => some b
  | _ => none

/-- The label that a node places, if any. -/
def label? : Node → Option Label
  | label placed => some placed
  | _ => none

/-- One past the last local that a node reads or writes. -/
def localsEnd? : Node → Option Nat
  | instruction i => i.localAccess?.map fun (slot, width) => slot + width
  | branch (.ret slot) => some (slot + 1)
  | _ => none

end Node

end MethodFlow
