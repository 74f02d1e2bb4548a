import MethodFlow.Text.Line

/-! Names of members and of classes. A name is a text that passed the check of its kind, so every
value of these types is a legal name. -/

namespace MethodFlow

open MethodFlow.Text (splitAll)

/-- Why a text is not a name. -/
inductive NameError where
  | illegalCharacter (name : List Char)
  | emptyUnqualified
  | angleBrackets (name : List Char)
  | emptyBinary
  | segment (name : List Char) (cause : NameError)
deriving DecidableEq, Repr

def NameError.message : NameError → String
  | .illegalCharacter name =>
    "Unqualified name '" ++ String.ofList name ++ "' contains an illegal character"
  | .emptyUnqualified => "Unqualified name is empty"
  | .angleBrackets name =>
    "Only '<init>' and '<clinit>' may contain angle brackets, not '" ++ String.ofList name ++ "'"
  | .emptyBinary => "Binary name is empty"
  | .segment name cause => "Invalid binary name '" ++ String.ofList name ++ "': " ++ cause.message

/-- Names of initializers, the only ones with angle brackets. -/
def initializerNames : List (List Char) := ["<init>".toList, "<clinit>".toList]

/-- The first rule for unqualified names that a text breaks. -/
def unqualifiedError? (text : List Char) : Option NameError :=
  if text.any fun c => c = '.' || c = ';' || c = '[' || c = '/' then some (.illegalCharacter text)
  else if text.isEmpty then some .emptyUnqualified
  else if (text.any fun c => c = '<' || c = '>') && !initializerNames.contains text then
    some (.angleBrackets text)
  else none

/-- The first rule for binary names that a text breaks: its parts between slashes are unqualified
names. -/
def binaryError? (text : List Char) : Option NameError :=
  if text.isEmpty then some .emptyBinary
  else ((splitAll (· = '/') text).findSome? unqualifiedError?).map (.segment text)

structure UnqualifiedName where
  chars : List Char
  valid : unqualifiedError? chars = none
deriving DecidableEq

structure BinaryName where
  chars : List Char
  valid : binaryError? chars = none
deriving DecidableEq

instance : ToString UnqualifiedName := ⟨fun name => String.ofList name.chars⟩

instance : ToString BinaryName := ⟨fun name => String.ofList name.chars⟩

def UnqualifiedName.ofChars (text : List Char) : Except NameError UnqualifiedName :=
  match valid : unqualifiedError? text with
  | none => .ok ⟨text, valid⟩
  | some error => .error error

def BinaryName.ofChars (text : List Char) : Except NameError BinaryName :=
  match valid : binaryError? text with
  | none => .ok ⟨text, valid⟩
  | some error => .error error

theorem UnqualifiedName.ofChars_chars (name : UnqualifiedName) : ofChars name.chars = .ok name := by
  unfold ofChars
  split
  · rfl
  · rename_i error found
    rw [name.valid] at found
    cases found

theorem BinaryName.ofChars_chars (name : BinaryName) : ofChars name.chars = .ok name := by
  unfold ofChars
  split
  · rfl
  · rename_i error found
    rw [name.valid] at found
    cases found

namespace BinaryName

def arithmeticException : BinaryName := ⟨"java/lang/ArithmeticException".toList, by decide⟩
def charSequence : BinaryName := ⟨"java/lang/CharSequence".toList, by decide⟩
def classObject : BinaryName := ⟨"java/lang/Class".toList, by decide⟩
def cloneable : BinaryName := ⟨"java/lang/Cloneable".toList, by decide⟩
def comparable : BinaryName := ⟨"java/lang/Comparable".toList, by decide⟩
def boxedDouble : BinaryName := ⟨"java/lang/Double".toList, by decide⟩
def error : BinaryName := ⟨"java/lang/Error".toList, by decide⟩
def exception : BinaryName := ⟨"java/lang/Exception".toList, by decide⟩
def boxedFloat : BinaryName := ⟨"java/lang/Float".toList, by decide⟩
def boxedInteger : BinaryName := ⟨"java/lang/Integer".toList, by decide⟩
def boxedLong : BinaryName := ⟨"java/lang/Long".toList, by decide⟩
def methodHandle : BinaryName := ⟨"java/lang/invoke/MethodHandle".toList, by decide⟩
def methodType : BinaryName := ⟨"java/lang/invoke/MethodType".toList, by decide⟩
def number : BinaryName := ⟨"java/lang/Number".toList, by decide⟩
def object : BinaryName := ⟨"java/lang/Object".toList, by decide⟩
def runtimeException : BinaryName := ⟨"java/lang/RuntimeException".toList, by decide⟩
def serializable : BinaryName := ⟨"java/io/Serializable".toList, by decide⟩
def string : BinaryName := ⟨"java/lang/String".toList, by decide⟩
def throwable : BinaryName := ⟨"java/lang/Throwable".toList, by decide⟩

/-- Owner of the methods that a listing declares outside of any class. -/
def main : BinaryName := ⟨"Main".toList, by decide⟩

end BinaryName

end MethodFlow
