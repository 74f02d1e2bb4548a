import MethodFlow.Code.Shown
import MethodFlow.Fault
import MethodFlow.SlotVec

/-! Value domains: what the analysis keeps about the values in locals and on the stack. A frame only
moves values around; what an operation makes of its operands is up to the domain. -/

namespace MethodFlow

/-- Abstract values, with the slots they take and two shown forms: a short one for frames and a full
one for messages. -/
class AbstractValue (V : Type) extends HasWidth V where
  decEq : DecidableEq V
  shown : V → String
  detail : V → String

instance {V : Type} [AbstractValue V] : DecidableEq V := AbstractValue.decEq

/-- What the operations of the code do to abstract values. Each operation is asked for its result at
its index, with operands in the order they were pushed; where nothing is pushed there is none. -/
structure Domain (V : Type) where
  /-- The value of a type, or of a slot that holds nothing usable. -/
  valueOf : Option FieldType → V
  /-- Operations that push without popping. -/
  produce : Site → Except Fault V
  /-- Loads, stores and shuffles. -/
  copy : Site → V → Except Fault V
  unary : Site → V → Except Fault (Option V)
  binary : Site → V → V → Except Fault (Option V)
  ternary : Site → V → V → V → Except Fault (Option V)
  /-- Invocations, with the receiver first, and arrays of several dimensions. -/
  nary : Site → List V → Except Fault (Option V)
  /-- Checks a returned value against the one expected. -/
  checkReturn : Site → V → V → Except Fault Unit
  /-- The value of a slot that holds either of two values. -/
  merge : V → V → Except Fault V
  /-- How often merges can change a slot in code of so many nodes. -/
  height : Nat → Nat

namespace Domain

variable {V : Type}

/-- The value of a slot that holds nothing usable. -/
def unusable (domain : Domain V) : V := domain.valueOf none

/-- The value of a parameter on entry. -/
def parameter (domain : Domain V) (type : FieldType) : V := domain.valueOf (some type)

/-- The value that returns have to fit, if any. -/
def returned (domain : Domain V) (type : Option FieldType) : Option V :=
  type.map fun type => domain.valueOf (some type)

/-- The value on the stack when a handler is entered. -/
def exception (domain : Domain V) (caught : BinaryName) : V :=
  domain.valueOf (some (.object caught))

end Domain

/-- The fault of an operation that got operands in a number it does not take. -/
def Site.unexpected (site : Site) : Fault := .unexpectedInstruction site.operation.shown

end MethodFlow
