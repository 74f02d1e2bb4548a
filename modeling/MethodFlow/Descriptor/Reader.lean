import MethodFlow.Descriptor.Basic

/-! Reading descriptors. Each reader consumes the written form of one type from the front of a text
and returns the rest; a whole text must be used up. -/

namespace MethodFlow

/-- Why a text is not a descriptor. -/
inductive DescriptorError where
  | leftover (c : Char)
  | invalidBase (c : Char)
  | missingBase
  | unterminatedClass (name : List Char)
  | badClassName (cause : NameError)
  | expectedClass
  | invalidReference (c : Char)
  | missingReference
  | invalidField (c : Char)
  | missingField
  | expectedParameters
  | unterminatedParameters
deriving DecidableEq, Repr

namespace DescriptorError

/-- Did the text end where more was needed? Otherwise it held something out of place. -/
def endsEarly : DescriptorError → Bool
  | missingBase | unterminatedClass _ | missingReference | missingField
  | unterminatedParameters => true
  | _ => false

private def about (start : String) (c : Char) : String := start ++ " '" ++ c.toString ++ "'"

def message : DescriptorError → String
  | leftover c => about "Unexpected leftover input" c
  | invalidBase c => about "Invalid base type character" c
  | missingBase => "Missing base type character"
  | unterminatedClass name => "Missing terminator for 'L" ++ String.ofList name ++ "'"
  | badClassName cause => cause.message
  | expectedClass => "Expected object type to start with `L`"
  | invalidReference c => about "Invalid reference type character" c
  | missingReference => "Missing field type"
  | invalidField c => about "Invalid field type character" c
  | missingField => "Missing field type"
  | expectedParameters => "Expected '(' for method"
  | unterminatedParameters => "Expected ')' for method"

end DescriptorError

/-- Reads a value from the front of a text. -/
abbrev DescriptorReader (α : Type) := List Char → Except DescriptorError (α × List Char)

def BaseType.read : DescriptorReader BaseType
  | [] => .error .missingBase
  | c :: rest =>
    match BaseType.ofLetter? c with
    | some type => .ok (type, rest)
    | none => .error (.invalidBase c)

/-- The characters before the first semicolon, and those after it. -/
def readClassChars (text : List Char) : Except DescriptorError (List Char × List Char) :=
  match Text.cutAt (· = ';') text with
  | (name, some rest) => .ok (name, rest)
  | (name, none) => .error (.unterminatedClass name)

def BinaryName.read : DescriptorReader BinaryName
  | 'L' :: text => do
    let (chars, rest) ← readClassChars text
    match BinaryName.ofChars chars with
    | .ok name => .ok (name, rest)
    | .error cause => .error (.badClassName cause)
  | _ => .error .expectedClass

/-- Splits off leading brackets, counting them. -/
def readBrackets : List Char → Nat × List Char
  | '[' :: rest =>
    let (count, rest) := readBrackets rest
    (count + 1, rest)
  | text => (0, text)

/-- Reads the element of an array with the given dimensions beyond its first. -/
def RefType.readElement (additional : Nat) (text : List Char) :
    Except DescriptorError (RefType × List Char) :=
  match text with
  | 'L' :: _ => do
    let (element, rest) ← BinaryName.read text
    .ok (.objectArray additional element, rest)
  | _ => do
    let (element, rest) ← BaseType.read text
    .ok (.primitiveArray additional element, rest)

def RefType.read : DescriptorReader RefType
  | [] => .error .missingReference
  | 'L' :: text => do
    let (name, rest) ← BinaryName.read ('L' :: text)
    .ok (.object name, rest)
  | '[' :: text =>
    let (additional, text) := readBrackets text
    RefType.readElement additional text
  | c :: _ => .error (.invalidReference c)

def FieldType.read : DescriptorReader FieldType
  | [] => .error .missingField
  | c :: rest =>
    match BaseType.ofLetter? c with
    | some type => .ok (.base type, rest)
    | none =>
      if c = 'L' ∨ c = '[' then do
        let (type, rest) ← RefType.read (c :: rest)
        .ok (.ref type, rest)
      else .error (.invalidField c)

private theorem cutAt_length (stop : Char → Bool) (text name rest : List Char)
    (found : Text.cutAt stop text = (name, some rest)) : rest.length < text.length := by
  induction text generalizing name with
  | nil => simp [Text.cutAt] at found
  | cons c tail step =>
    simp only [Text.cutAt] at found
    split at found
    · simp only [Prod.mk.injEq, Option.some.injEq] at found
      simp [← found.2]
    · simp only [Prod.mk.injEq] at found
      have := step (Text.cutAt stop tail).1 (by rw [← found.2])
      simp; omega

private theorem readBrackets_length (text : List Char) :
    (readBrackets text).2.length ≤ text.length := by
  induction text with
  | nil => simp [readBrackets]
  | cons c tail step =>
    unfold readBrackets
    split
    · rename_i rest same
      cases same
      simp; omega
    · simp

theorem BaseType.read_length {text rest : List Char} {type : BaseType}
    (found : BaseType.read text = .ok (type, rest)) : rest.length < text.length := by
  unfold BaseType.read at found
  split at found
  · cases found
  · split at found <;> simp at found
    simp [← found.2]

theorem BinaryName.read_length {text rest : List Char} {name : BinaryName}
    (found : BinaryName.read text = .ok (name, rest)) : rest.length < text.length := by
  unfold BinaryName.read at found
  split at found
  · rename_i tail
    simp only [readClassChars, bind, Except.bind] at found
    split at found
    · cases found
    · rename_i pair cut
      split at cut
      · rename_i chars after same
        simp only [Except.ok.injEq] at cut
        subst cut
        have shorter := cutAt_length _ _ _ _ same
        dsimp only at found
        split at found
        · simp only [Except.ok.injEq, Prod.mk.injEq] at found
          rw [← found.2]
          simp; omega
        · cases found
      · cases cut
  · cases found

theorem RefType.readElement_length {additional : Nat} {text rest : List Char} {type : RefType}
    (found : RefType.readElement additional text = .ok (type, rest)) :
    rest.length < text.length := by
  unfold RefType.readElement at found
  split at found <;> simp only [bind, Except.bind] at found <;> split at found
  · cases found
  · rename_i pair inner
    simp only [Except.ok.injEq, Prod.mk.injEq] at found
    rw [← found.2]
    exact BinaryName.read_length inner
  · cases found
  · rename_i pair inner
    simp only [Except.ok.injEq, Prod.mk.injEq] at found
    rw [← found.2]
    exact BaseType.read_length inner

theorem RefType.read_length {text rest : List Char} {type : RefType}
    (found : RefType.read text = .ok (type, rest)) : rest.length < text.length := by
  unfold RefType.read at found
  split at found
  · cases found
  · simp only [bind, Except.bind] at found
    split at found
    · cases found
    · rename_i pair inner
      simp only [Except.ok.injEq, Prod.mk.injEq] at found
      rw [← found.2]
      exact BinaryName.read_length inner
  · rename_i tail
    have shorter := RefType.readElement_length found
    have brackets := readBrackets_length tail
    simp; omega
  · cases found

theorem FieldType.read_length {text rest : List Char} {type : FieldType}
    (found : FieldType.read text = .ok (type, rest)) : rest.length < text.length := by
  unfold FieldType.read at found
  split at found
  · cases found
  · split at found
    · simp only [Except.ok.injEq, Prod.mk.injEq] at found
      simp [← found.2]
    · split at found
      · simp only [bind, Except.bind] at found
        split at found
        · cases found
        · rename_i pair inner
          simp only [Except.ok.injEq, Prod.mk.injEq] at found
          rw [← found.2]
          exact RefType.read_length inner
      · cases found

/-- Reads types up to a closing parenthesis, which is used up too. -/
def readParameters (text : List Char) : Except DescriptorError (List FieldType × List Char) :=
  match text with
  | [] => .error .unterminatedParameters
  | ')' :: rest => .ok ([], rest)
  | c :: more =>
    match _found : FieldType.read (c :: more) with
    | .error cause => .error cause
    | .ok (type, rest) => do
      let (types, rest) ← readParameters rest
      .ok (type :: types, rest)
termination_by text.length
decreasing_by exact FieldType.read_length _found

/-- Reads the type of a result. -/
def readReturnType : DescriptorReader (Option FieldType)
  | 'V' :: rest => .ok (none, rest)
  | text => do
    let (type, rest) ← FieldType.read text
    .ok (some type, rest)

def MethodDescriptor.read : DescriptorReader MethodDescriptor
  | '(' :: text => do
    let (parameters, rest) ← readParameters text
    let (returnType, rest) ← readReturnType rest
    .ok (⟨parameters, returnType⟩, rest)
  | _ => .error .expectedParameters

/-- Applies a reader to a text that it must use up. -/
def readWhole {α : Type} (reader : DescriptorReader α) (text : List Char) :
    Except DescriptorError α :=
  match reader text with
  | .error cause => .error cause
  | .ok (value, []) => .ok value
  | .ok (_, c :: _) => .error (.leftover c)

def BaseType.parse (text : List Char) : Except DescriptorError BaseType :=
  readWhole BaseType.read text

/-- Reads a class between `L` and a semicolon. -/
def BinaryName.parse (text : List Char) : Except DescriptorError BinaryName :=
  readWhole BinaryName.read text

def RefType.parse (text : List Char) : Except DescriptorError RefType :=
  readWhole RefType.read text

def FieldType.parse (text : List Char) : Except DescriptorError FieldType :=
  readWhole FieldType.read text

def MethodDescriptor.parse (text : List Char) : Except DescriptorError MethodDescriptor :=
  readWhole MethodDescriptor.read text

end MethodFlow
