import MethodFlow.Code.Instruction
import MethodFlow.Decimal.Reader
import MethodFlow.Listing.Fault
import MethodFlow.Text.Line

namespace MethodFlow.Listing

open MethodFlow.Text

/-- Turns the absence of a value into a fault. -/
def orFault {α : Type} (fault : ListingFault) : Option α → Except ListingFault α
  | some value => .ok value
  | none => .error fault

/-- A number of at most `limit`. -/
def readUnsigned (limit : Nat) (token : List Char) : Except ListingFault Nat :=
  orFault (.invalidNumber token) (unsigned? limit token)

/-- A number of `bits + 1` bits with a sign. -/
def readSigned (bits : Nat) (token : List Char) : Except ListingFault Int :=
  orFault (.invalidNumber token) (signed? bits token)

/-- The largest local, limit or line. -/
def largestShort : Nat := 65535

/-- A local, limit or line. -/
def readShort (token : List Char) : Except ListingFault Nat := readUnsigned largestShort token

def readBinaryName (token : List Char) : Except ListingFault BinaryName :=
  (BinaryName.ofChars token).mapError .badName

def readUnqualifiedName (token : List Char) : Except ListingFault UnqualifiedName :=
  (UnqualifiedName.ofChars token).mapError .badName

def readMethodDescriptor (token : List Char) : Except ListingFault MethodDescriptor :=
  (MethodDescriptor.parse token).mapError (.badMethodDescriptor token)

def readFieldType (token : List Char) : Except ListingFault FieldType :=
  (FieldType.parse token).mapError (.badFieldType token)

/-- A class by its name, or an array type by its descriptor. -/
def readClass (token : List Char) : Except ListingFault RefType :=
  match token with
  | '[' :: _ => (RefType.parse token).mapError (.badArrayType token)
  | _ => (readBinaryName token).map .object

/-- Primitive types by keyword. -/
def primitiveTypes : List (String × BaseType) :=
  [("boolean", .boolean), ("byte", .byte), ("char", .char), ("short", .short), ("int", .int),
    ("long", .long), ("float", .float), ("double", .double)]

def readPrimitive (token : List Char) : Except ListingFault BaseType :=
  orFault (.unknownPrimitive token) (primitiveTypes.lookup (String.ofList token))

/-- Cuts `name(…)…` before the parenthesis. -/
def splitMember (token : List Char) : Except ListingFault (List Char × List Char) :=
  match cutAt (· = '(') token with
  | (name, some rest) => .ok (name, '(' :: rest)
  | (_, none) => .error (.missingDescriptor token)

/-- Cuts `owner/name` at the last slash. -/
def readMember (token : List Char) : Except ListingFault (BinaryName × UnqualifiedName) :=
  match cutAtLast (· = '/') token with
  | none => .error (.missingOwner token)
  | some (owner, name) => do
    let owner ← readBinaryName owner
    let name ← readUnqualifiedName name
    return (owner, name)

/-- A method as `owner/name(…)…`. -/
def readMethodRef (token : List Char) (inInterface : Bool) : Except ListingFault MethodRef := do
  let (member, descriptor) ← splitMember token
  let (owner, name) ← readMember member
  let descriptor ← readMethodDescriptor descriptor
  return ⟨owner, name, descriptor, inInterface⟩

/-- A field as `owner/name` and a type. -/
def readFieldRef : List (List Char) → Except ListingFault FieldRef
  | [member, type] => do
    let (owner, name) ← readMember member
    let descriptor ← readFieldType type
    return ⟨owner, name, descriptor⟩
  | _ => .error .fieldForm

/-- The character that an escape stands for. -/
def escaped? : Char → Option Char
  | 'n' => some '\n'
  | 't' => some '\t'
  | 'r' => some '\r'
  | '"' => some '"'
  | '\\' => some '\\'
  | _ => none

/-- Replaces escapes by what they stand for. -/
def unescape : List Char → Except ListingFault (List Char)
  | [] => .ok []
  | '\\' :: rest =>
    match rest with
    | [] => .error .danglingEscape
    | c :: rest =>
      match escaped? c with
      | some plain => (unescape rest).map (plain :: ·)
      | none => .error (.unknownEscape c)
  | c :: rest => (unescape rest).map (c :: ·)

/-- A string between double quotes. -/
def readString (operand : List Char) : Except ListingFault (List Char) :=
  match operand with
  | '"' :: rest =>
    match dropLast? (· = '"') rest with
    | some inner => unescape inner
    | none => .error (.unterminatedString operand)
  | _ => .error (.unterminatedString operand)

/-- Cuts a text at its first blank; the second part is trimmed. -/
def splitWord (text : List Char) : List Char × List Char :=
  match cutAt isBlank text with
  | (word, some rest) => (word, trim rest)
  | (word, none) => (word, [])

/-- An `int` or, with an optional suffix, a `float`. -/
def readNumber (operand number : List Char) : Except ListingFault Constant :=
  match signed? 31 number with
  | some value => .ok (.integer value)
  | none =>
    let digits := (dropLast? (fun c => c = 'f' || c = 'F') number).getD number
    orFault (.invalidConstant operand) ((Decimal.Binary.read? .single digits).map .float)

/-- A constant of one slot. -/
def readConstant (operand : List Char) : Except ListingFault Constant :=
  match operand with
  | '"' :: _ => (readString operand).map .string
  | _ =>
    let (keyword, rest) := splitWord operand
    if keyword = "class".toList then (readClass rest).map .classRef
    else if keyword = "methodtype".toList then (readMethodDescriptor rest).map .methodType
    else if keyword = "methodhandle".toList then (readMethodRef rest false).map .methodHandle
    else if rest.isEmpty then readNumber operand keyword
    else .error (.invalidConstant operand)

def readDouble (token : List Char) : Except ListingFault Constant :=
  orFault (.invalidNumber token) ((Decimal.Binary.read? .double token).map .double)

/-- A constant of two slots; a suffix decides between `long` and `double`. -/
def readWideConstant (token : List Char) : Except ListingFault Constant :=
  match dropLast? (fun c => c = 'l' || c = 'L') token with
  | some digits => (readSigned 63 digits).map .long
  | none =>
    match dropLast? (fun c => c = 'd' || c = 'D') token with
    | some digits => readDouble digits
    | none =>
      match signed? 63 token with
      | some value => .ok (.long value)
      | none => readDouble token

end MethodFlow.Listing
