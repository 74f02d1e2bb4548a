import MethodFlow.Decimal.Binary
import MethodFlow.Descriptor.Basic

/-! Instructions that pass control on to the next one. Forms of an instruction that differ only in
the kind of value they work on, or in the size of their encoding, are one constructor here. -/

namespace MethodFlow

/-- Kinds of values that have loads, stores and returns of their own. -/
inductive Kind where
  | int
  | long
  | float
  | double
  | reference
deriving DecidableEq, Repr

/-- Kinds of numbers. -/
inductive NumberKind where
  | int
  | long
  | float
  | double
deriving DecidableEq, Repr

/-- Kinds of integers. -/
inductive IntegerKind where
  | int
  | long
deriving DecidableEq, Repr

/-- Slots that a value of a kind takes. -/
def Kind.width : Kind → Nat
  | .long | .double => 2
  | _ => 1

def NumberKind.type : NumberKind → FieldType
  | .int => .int
  | .long => .long
  | .float => .float
  | .double => .double

def IntegerKind.type : IntegerKind → FieldType
  | .int => .int
  | .long => .long

/-- Elements that arrays have loads and stores for; one of them serves bytes and booleans. -/
inductive ArrayKind where
  | int
  | long
  | float
  | double
  | reference
  | byte
  | char
  | short
deriving DecidableEq, Repr

/-- Constants that have instructions of their own. -/
inductive ShortConstant where
  | intMinus1
  | int0
  | int1
  | int2
  | int3
  | int4
  | int5
  | long0
  | long1
  | float0
  | float1
  | float2
  | double0
  | double1
deriving DecidableEq, Repr

def ShortConstant.type : ShortConstant → FieldType
  | .intMinus1 | .int0 | .int1 | .int2 | .int3 | .int4 | .int5 => .int
  | .long0 | .long1 => .long
  | .float0 | .float1 | .float2 => .float
  | .double0 | .double1 => .double

structure FieldRef where
  owner : BinaryName
  name : UnqualifiedName
  descriptor : FieldType
deriving DecidableEq

structure MethodRef where
  owner : BinaryName
  name : UnqualifiedName
  descriptor : MethodDescriptor
  inInterface : Bool
deriving DecidableEq

/-- Call site whose method is found when it first runs; only name and type matter here. -/
structure DynamicRef where
  name : UnqualifiedName
  descriptor : MethodDescriptor
deriving DecidableEq

/-- Constants of a class file. -/
inductive Constant where
  | integer (value : Int)
  | float (value : Decimal.Binary)
  | long (value : Int)
  | double (value : Decimal.Binary)
  | string (value : List Char)
  | classRef (type : RefType)
  | methodType (descriptor : MethodDescriptor)
  | methodHandle (method : MethodRef)
deriving DecidableEq

/-- Type of the value that a constant is loaded as. -/
def Constant.type : Constant → FieldType
  | .integer _ => .int
  | .float _ => .float
  | .long _ => .long
  | .double _ => .double
  | .string _ => .object .string
  | .classRef _ => .object .classObject
  | .methodType _ => .object .methodType
  | .methodHandle _ => .object .methodHandle

/-- Rearrangements of the top of the stack. -/
inductive Shuffle where
  | pop
  | pop2
  | dup
  | dupX1
  | dupX2
  | dup2
  | dup2X1
  | dup2X2
  | swap
deriving DecidableEq, Repr

/-- Arithmetic on two numbers of one kind. -/
inductive ArithmeticOp where
  | add
  | sub
  | mul
  | div
  | rem
deriving DecidableEq, Repr

inductive ShiftOp where
  | left
  | logicalRight
  | arithmeticRight
deriving DecidableEq, Repr

inductive BitwiseOp where
  | and
  | or
  | xor
deriving DecidableEq, Repr

/-- Conversions between kinds of numbers, and truncations of an `int`. -/
inductive Conversion where
  | intToLong
  | intToFloat
  | intToDouble
  | longToInt
  | longToFloat
  | longToDouble
  | floatToInt
  | floatToLong
  | floatToDouble
  | doubleToInt
  | doubleToLong
  | doubleToFloat
  | intToByte
  | intToChar
  | intToShort
deriving DecidableEq, Repr

/-- Kind of the operand of a conversion. -/
def Conversion.source : Conversion → NumberKind
  | .intToLong | .intToFloat | .intToDouble | .intToByte | .intToChar | .intToShort => .int
  | .longToInt | .longToFloat | .longToDouble => .long
  | .floatToInt | .floatToLong | .floatToDouble => .float
  | .doubleToInt | .doubleToLong | .doubleToFloat => .double

/-- Kind of the result of a conversion. -/
def Conversion.target : Conversion → NumberKind
  | .longToInt | .floatToInt | .doubleToInt | .intToByte | .intToChar | .intToShort => .int
  | .intToLong | .floatToLong | .doubleToLong => .long
  | .intToFloat | .longToFloat | .doubleToFloat => .float
  | .intToDouble | .longToDouble | .floatToDouble => .double

/-- What a floating-point comparison yields when an operand is not a number: less or greater. -/
inductive NanOrder where
  | less
  | greater
deriving DecidableEq, Repr

/-- Three-way comparisons. -/
inductive Comparison where
  | long
  | float (nan : NanOrder)
  | double (nan : NanOrder)
deriving DecidableEq, Repr

/-- Type of the operands of a comparison. -/
def Comparison.type : Comparison → FieldType
  | .long => .long
  | .float _ => .float
  | .double _ => .double

/-- Ways of choosing the method that an invocation runs. -/
inductive InvokeKind where
  | virtual
  | special
  | static
  | interface
deriving DecidableEq, Repr

/-- Is the object that the method runs on passed along? -/
def InvokeKind.hasReceiver : InvokeKind → Bool
  | .static => false
  | _ => true

/-- An instruction that passes control on to the next one. -/
inductive Instruction where
  | nop
  | pushNull
  | shortConstant (constant : ShortConstant)
  | pushByte (value : Int)
  | pushShort (value : Int)
  | loadConstant (constant : Constant)
  | loadWideConstant (constant : Constant)
  | load (kind : Kind) (slot : Nat)
  | arrayLoad (kind : ArrayKind)
  | store (kind : Kind) (slot : Nat)
  | arrayStore (kind : ArrayKind)
  | shuffle (shape : Shuffle)
  | arithmetic (op : ArithmeticOp) (kind : NumberKind)
  | negate (kind : NumberKind)
  | shift (op : ShiftOp) (kind : IntegerKind)
  | bitwise (op : BitwiseOp) (kind : IntegerKind)
  | increment (slot : Nat) (amount : Int)
  | convert (conversion : Conversion)
  | compare (comparison : Comparison)
  | getStatic (field : FieldRef)
  | putStatic (field : FieldRef)
  | getField (field : FieldRef)
  | putField (field : FieldRef)
  | invoke (kind : InvokeKind) (method : MethodRef)
  | invokeDynamic (site : DynamicRef)
  | newObject (name : BinaryName)
  | newPrimitiveArray (element : BaseType)
  | newArray (element : RefType)
  | arrayLength
  | checkCast (type : RefType)
  | instanceOf (type : RefType)
  | monitorEnter
  | monitorExit
  | newMultiArray (type : RefType) (dimensions : Nat)
deriving DecidableEq

/-- The local that an instruction reads or writes, and the slots it takes there. -/
def Instruction.localAccess? : Instruction → Option (Nat × Nat)
  | .load kind slot | .store kind slot => some (slot, kind.width)
  | .increment slot _ => some (slot, 1)
  | _ => none

end MethodFlow
