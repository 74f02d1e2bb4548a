import MethodFlow.Domain.OperandCheck
import MethodFlow.Hierarchy.TypeHierarchy

namespace MethodFlow

/-- Type of a value, as far as verification knows it. -/
inductive VerificationType where
  /-- Nothing usable. -/
  | top
  | integer
  | float
  | long
  | double
  /-- The null reference, which fits every reference type. -/
  | null
  | returnAddress
  | object (type : RefType)
deriving DecidableEq

namespace VerificationType

def width : VerificationType → Nat
  | long | double => 2
  | _ => 1

def shown : VerificationType → String
  | top => "."
  | integer => "I"
  | float => "F"
  | long => "J"
  | double => "D"
  | null => "null"
  | returnAddress => "A"
  | object type => toString type

def detail : VerificationType → String
  | top => "Top"
  | integer => "Integer"
  | float => "Float"
  | long => "Long"
  | double => "Double"
  | null => "Null"
  | returnAddress => "ReturnAddress"
  | object type => Text.shownCall "Object" [type.shown]

instance : AbstractValue VerificationType where
  width := width
  decEq := inferInstance
  shown := shown
  detail := detail

/-- Verification type of the values of a type. -/
def ofType : FieldType → VerificationType
  | .base .float => float
  | .base .long => long
  | .base .double => double
  | .base _ => integer
  | .ref type => object type

/-- Type of the elements of an array of references; those of null are null. -/
def elementOf (array : VerificationType) : Except Fault VerificationType :=
  let mismatch := Fault.mismatch (some "First argument") "an array reference" array.shown
  match array with
  | null => .ok null
  | object type =>
    match type.elementType? with
    | some element => .ok (ofType element)
    | none => .error mismatch
  | _ => .error mismatch

/-- Types as verification types. -/
def types : TypeValues VerificationType where
  valueOf type := (type.map ofType).getD top
  null := null
  returnAddress := returnAddress
  elementOf := elementOf

def isReference : VerificationType → Bool
  | null | object _ => true
  | _ => false

def isArray : VerificationType → Bool
  | null => true
  | object type => type.isArray
  | _ => false

def isReferenceArray : VerificationType → Bool
  | null => true
  | object type =>
    match type.elementType? with
    | some (.ref _) => true
    | _ => false
  | _ => false

/-- Answers of a hierarchy, with an unknown class as the fault. -/
def answer {α : Type} : Except Unresolved α → Except Fault α
  | .ok value => .ok value
  | .error unresolved => .error unresolved.fault

/-- Can a value of the second type be kept where the first is declared? -/
def isAssignableFrom (hierarchy : TypeHierarchy) (expected value : RefType) : Except Fault Bool :=
  if expected = value then .ok true else answer (hierarchy.isAssignable value expected)

/-- Whether a value fits. Every object fits an interface, which only the running program checks. -/
def isSubtype (hierarchy : TypeHierarchy) (value expected : VerificationType) :
    Except Fault Bool :=
  if value = expected then .ok true
  else
    match value, expected with
    | null, object _ => .ok true
    | object value, object expected => do
      if ← isAssignableFrom hierarchy expected value then
        return true
      match expected with
      | .object name => answer (hierarchy.isInterface name)
      | _ => return false
    | _, _ => .ok false

/-- Type of what may be stored in an array; storing into null never gets that far. -/
def storedElement : VerificationType → Except Fault (Option VerificationType)
  | null => .ok none
  | array => (elementOf array).map some

/-- Verification types as operands. -/
def checkedTypes (hierarchy : TypeHierarchy) : CheckedValues VerificationType where
  toTypeValues := types
  isReference := isReference
  isReturnAddress type := type = returnAddress
  isArray := isArray
  isReferenceArray := isReferenceArray
  isSubtype := isSubtype hierarchy
  storedElement := storedElement

/-- The class directly above a type for the purpose of merging. An interface has none, and neither
has a class met before. -/
def classAbove (hierarchy : TypeHierarchy) (visited : List BinaryName) :
    RefType → Except Fault (Option BinaryName)
  | .object name => do
    if visited.contains name then
      return none
    if ← answer (hierarchy.isInterface name) then
      return none
    answer (hierarchy.superclass name)
  | _ => .ok (some .object)

/-- The classes met so far, with one more. -/
def withVisited (visited : List BinaryName) : RefType → List BinaryName
  | .object name => name :: visited
  | _ => visited

/-- Walks up from a candidate to the first class that the other type is assignable to. The walk ends
at the root after as many steps as it can take without meeting a class again. -/
def closestAbove (hierarchy : TypeHierarchy) (other : RefType) :
    Nat → List BinaryName → RefType → Except Fault BinaryName
  | 0, _, _ => .ok .object
  | steps + 1, visited, candidate => do
    match ← classAbove hierarchy visited candidate with
    | none => return .object
    | some above =>
      if ← isAssignableFrom hierarchy (.object above) other then
        return above
      closestAbove hierarchy other steps (withVisited visited candidate) (.object above)

/-- The closest common supertype of two types of which neither fits the other. Arrays of objects
with as many dimensions meet in their elements. -/
def mergeReferences (hierarchy : TypeHierarchy) (first second : RefType) :
    Except Fault RefType := do
  let (dimensions, candidate, other) :=
    match first, second with
    | .objectArray additional element, .objectArray additional' element' =>
      if additional = additional' then
        (additional + 1, RefType.object element, RefType.object element')
      else (0, first, second)
    | _, _ => (0, first, second)
  let above ← closestAbove hierarchy other (hierarchy.classCount + 2) [] candidate
  return .ofDimensions dimensions above

/-- The closest type that two types fit. -/
def merge (hierarchy : TypeHierarchy) (first second : VerificationType) :
    Except Fault VerificationType :=
  if first = second then .ok first
  else
    match first, second with
    | null, object _ => .ok second
    | object _, null => .ok first
    | object type, object type' => do
      if ← isAssignableFrom hierarchy type type' then
        return first
      if ← isAssignableFrom hierarchy type' type then
        return second
      return object (← mergeReferences hierarchy type type')
    | _, _ => .ok top

/-- More than the steps up from any type of a class file: those between classes, and those from an
array to one of fewer dimensions. -/
def height (hierarchy : TypeHierarchy) : Nat := 4 * (hierarchy.classCount + 65536)

/-- Verification types with every operand checked. -/
def verifier (hierarchy : TypeHierarchy) : Domain VerificationType :=
  (checkedTypes hierarchy).domain (merge hierarchy) fun _ => height hierarchy

end VerificationType

end MethodFlow
