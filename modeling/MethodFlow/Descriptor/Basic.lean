import MethodFlow.Name

namespace MethodFlow

/-- Primitive types. -/
inductive BaseType where
  | byte
  | char
  | double
  | float
  | int
  | long
  | short
  | boolean
deriving DecidableEq, Repr

namespace BaseType

def all : List BaseType := [byte, char, double, float, int, long, short, boolean]

/-- Slots that a value of the type takes. -/
def width : BaseType → Nat
  | double | long => 2
  | _ => 1

/-- The letter that stands for the type in a descriptor. -/
def letter : BaseType → Char
  | byte => 'B'
  | char => 'C'
  | double => 'D'
  | float => 'F'
  | int => 'I'
  | long => 'J'
  | short => 'S'
  | boolean => 'Z'

def ofLetter? (c : Char) : Option BaseType := all.find? (·.letter = c)

theorem ofLetter?_letter (base : BaseType) : ofLetter? base.letter = some base := by
  cases base <;> decide

end BaseType

/-- Reference types. An array type counts the dimensions beyond its first. -/
inductive RefType where
  | object (name : BinaryName)
  | objectArray (additional : Nat) (element : BinaryName)
  | primitiveArray (additional : Nat) (element : BaseType)
deriving DecidableEq

/-- Types of fields and parameters. -/
inductive FieldType where
  | base (type : BaseType)
  | ref (type : RefType)
deriving DecidableEq

namespace RefType

/-- Arrays of a type. -/
def arrayOf : FieldType → RefType
  | .base element => .primitiveArray 0 element
  | .ref (.object element) => .objectArray 0 element
  | .ref (.objectArray additional element) => .objectArray (additional + 1) element
  | .ref (.primitiveArray additional element) => .primitiveArray (additional + 1) element

/-- Objects of a class inside some number of dimensions, which may be none. -/
def ofDimensions (dimensions : Nat) (element : BinaryName) : RefType :=
  match dimensions with
  | 0 => .object element
  | additional + 1 => .objectArray additional element

def isArray : RefType → Bool
  | .object _ => false
  | _ => true

/-- Type of the elements of an array. -/
def elementType? : RefType → Option FieldType
  | .object _ => none
  | .primitiveArray 0 element => some (.base element)
  | .primitiveArray (additional + 1) element => some (.ref (.primitiveArray additional element))
  | .objectArray additional element => some (.ref (ofDimensions additional element))

end RefType

namespace FieldType

def int : FieldType := .base .int
def long : FieldType := .base .long
def float : FieldType := .base .float
def double : FieldType := .base .double
def object (name : BinaryName) : FieldType := .ref (.object name)
def arrayOf (element : FieldType) : FieldType := .ref (RefType.arrayOf element)

/-- Slots that a value of the type takes. -/
def width : FieldType → Nat
  | .base type => type.width
  | .ref _ => 1

end FieldType

/-- Types of the parameters of a method and of its result, if it has one. -/
structure MethodDescriptor where
  parameters : List FieldType
  returnType : Option FieldType
deriving DecidableEq

/-- Slots that the arguments take, the receiver included if asked. -/
def MethodDescriptor.parameterLength (descriptor : MethodDescriptor) (receiver : Bool) : Nat :=
  (if receiver then 1 else 0) + descriptor.parameters.foldr (fun type slots => type.width + slots) 0

/-- A class between `L` and a semicolon. -/
def BinaryName.render (name : BinaryName) : List Char := 'L' :: name.chars ++ [';']

def RefType.render : RefType → List Char
  | .object name => name.render
  | .objectArray additional element => List.replicate (additional + 1) '[' ++ element.render
  | .primitiveArray additional element => List.replicate (additional + 1) '[' ++ [element.letter]

def FieldType.render : FieldType → List Char
  | .base type => [type.letter]
  | .ref type => type.render

/-- The parameters between parentheses, then the result, which is `V` if there is none. -/
def MethodDescriptor.render (descriptor : MethodDescriptor) : List Char :=
  '(' :: descriptor.parameters.flatMap FieldType.render ++ ')' ::
    (match descriptor.returnType with
    | none => ['V']
    | some type => type.render)

instance : ToString RefType := ⟨fun type => String.ofList type.render⟩
instance : ToString FieldType := ⟨fun type => String.ofList type.render⟩
instance : ToString MethodDescriptor := ⟨fun descriptor => String.ofList descriptor.render⟩

end MethodFlow
