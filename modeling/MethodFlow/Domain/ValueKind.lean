import MethodFlow.Domain.OperandCheck

/-! The domain of kinds: it tells numbers, references and return addresses apart and nothing more.
With checks it is a verifier for everything but the classes of references. -/

namespace MethodFlow

/-- Kind of a value. A slot that holds nothing usable has a kind of its own: an unset local, the
second slot of a wide value, or two kinds that met. -/
inductive ValueKind where
  | unusable
  | int
  | float
  | long
  | double
  | reference
  | returnAddress
deriving DecidableEq, Repr

namespace ValueKind

def width : ValueKind → Nat
  | long | double => 2
  | _ => 1

def shown : ValueKind → String
  | unusable => "."
  | int => "I"
  | float => "F"
  | long => "J"
  | double => "D"
  | reference => "R"
  | returnAddress => "A"

def detail : ValueKind → String
  | unusable => "Uninitialized"
  | int => "Int"
  | float => "Float"
  | long => "Long"
  | double => "Double"
  | reference => "Reference"
  | returnAddress => "ReturnAddress"

instance : AbstractValue ValueKind where
  width := width
  decEq := inferInstance
  shown := shown
  detail := detail

/-- Kind of the values of a type. -/
def ofType : FieldType → ValueKind
  | .base .float => float
  | .base .long => long
  | .base .double => double
  | .base _ => int
  | .ref _ => reference

/-- Types as kinds; the elements of an array of references are references. -/
def types : TypeValues ValueKind where
  valueOf type := (type.map ofType).getD unusable
  null := reference
  returnAddress := returnAddress
  elementOf _ := .ok reference

/-- Kinds fit only themselves, and any reference may be an array. -/
def checkedTypes : CheckedValues ValueKind where
  toTypeValues := types
  isReference kind := kind = reference
  isReturnAddress kind := kind = returnAddress
  isArray kind := kind = reference
  isReferenceArray kind := kind = reference
  isSubtype value expected := .ok (value = expected)
  storedElement _ := .ok none

/-- Different kinds leave nothing usable. -/
def merge (first second : ValueKind) : ValueKind := if first = second then first else unusable

theorem merge_self (kind : ValueKind) : merge kind kind = kind := by simp [merge]

/-- A slot changes at most once, to nothing usable. -/
def height : Nat := 1

/-- Kinds without checks. -/
def domain : Domain ValueKind :=
  types.domain (fun first second => .ok (merge first second)) fun _ => height

/-- Kinds with every operand checked. -/
def verifier : Domain ValueKind :=
  checkedTypes.domain (fun first second => .ok (merge first second)) fun _ => height

end ValueKind

end MethodFlow
