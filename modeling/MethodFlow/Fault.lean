import MethodFlow.Name
import MethodFlow.Code.Label

namespace MethodFlow

/-- A limit that a class file stores in sixteen bits. -/
inductive Limit where
  | maxStack
  | maxLocals
deriving DecidableEq, Repr

def Limit.name : Limit → String
  | .maxStack => "max_stack"
  | .maxLocals => "max_locals"

/-- The largest value of a limit in a class file. -/
def Limit.largest : Nat := 65535

/-- What went wrong. Values that a fault speaks of are kept in their shown form. -/
inductive Fault where
  /-- A local outside of the declared ones is used. -/
  | invalidLocal (index maxLocals : Nat)
  /-- An operand is needed and the stack is empty. -/
  | emptyStack
  /-- A push would exceed the declared height. -/
  | stackOverflow (maxStack : Nat)
  /-- A stack shuffle meets a value of a width it has no form for. -/
  | invalidWidth (width : Nat)
  /-- Stacks that meet at a join differ in height. -/
  | incompatibleStackHeights (expected found : Nat)
  /-- A `ret` is reached outside of every subroutine. -/
  | retOutsideSubroutine
  /-- Control can run past the last instruction. -/
  | fallOffEnd
  /-- A label in use is placed nowhere. -/
  | undefinedLabel (label : Label)
  /-- A label is placed more than once. -/
  | duplicateLabel (label : Label)
  /-- A protected range ends before it starts. -/
  | invalidHandlerRange
  /-- An operation got operands in a number that it does not take. -/
  | unexpectedInstruction (shown : String)
  /-- An operation that pushes a value had none. -/
  | missingValue
  /-- A returned value does not fit the result of the method. -/
  | incompatibleReturn (expected found : String)
  /-- An operand is not what the operation needs. -/
  | mismatch (context : Option String) (expected found : String)
  /-- A class is not in the hierarchy. -/
  | unresolvedClass (name : BinaryName)
  /-- A computed limit does not fit a class file. -/
  | limitTooLarge (limit : Limit) (value : Nat)
deriving DecidableEq

def Fault.message : Fault → String
  | .invalidLocal index maxLocals =>
    s!"Local variable {index} does not exist (max locals is {maxLocals})"
  | .emptyStack => "Cannot pop operand off an empty stack"
  | .stackOverflow maxStack => s!"Insufficient maximum stack size ({maxStack})"
  | .invalidWidth width => s!"Illegal use of a value with width {width}"
  | .incompatibleStackHeights expected found =>
    s!"Incompatible stack heights (expected {expected}, found {found})"
  | .retOutsideSubroutine => "RET instruction outside of a subroutine"
  | .fallOffEnd => "Execution can fall off the end of the code"
  | .undefinedLabel label => s!"Label {label.shown} is never placed"
  | .duplicateLabel label => s!"Label {label.shown} is placed more than once"
  | .invalidHandlerRange => "Exception handler range ends before it starts"
  | .unexpectedInstruction shown => s!"Unexpected instruction {shown}"
  | .missingValue => "Instruction did not produce a value"
  | .incompatibleReturn expected found =>
    s!"Incompatible return type: expected {expected}, but found {found}"
  | .mismatch none expected found => s!"Expected {expected}, but found {found}"
  | .mismatch (some context) expected found => s!"{context}: expected {expected}, but found {found}"
  | .unresolvedClass name => s!"Cannot resolve class {name}"
  | .limitTooLarge limit value =>
    s!"Computed {limit.name} of {value} exceeds the limit of {Limit.largest}"

structure LocatedFault where
  index : Nat
  fault : Fault
deriving DecidableEq

def Fault.at (fault : Fault) (index : Nat) : LocatedFault := ⟨index, fault⟩

def LocatedFault.message (located : LocatedFault) : String :=
  s!"Error at instruction {located.index}: {located.fault.message}"

end MethodFlow
