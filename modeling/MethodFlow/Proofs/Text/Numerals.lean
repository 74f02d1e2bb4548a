import Mathlib.Algebra.Group.Int.Defs
import Mathlib.Algebra.Group.Nat.Defs
import MethodFlow.Proofs.Text.Solidity
import MethodFlow.Text.Numeral

namespace MethodFlow.Text

/-- The sign that an integer may be written with. -/
inductive Sign where
  | none
  | plus
  | minus
deriving DecidableEq, Repr

def Sign.chars : Sign → List Char
  | .none => []
  | .plus => ['+']
  | .minus => ['-']

/-- A sign before a magnitude. -/
def Sign.apply : Sign → Nat → Int
  | .minus, magnitude => -magnitude
  | _, magnitude => magnitude

structure Numeral where
  sign : Sign
  digits : List Char
  present : digits ≠ []
  decimal : ∀ c ∈ digits, c.isDigit = true

namespace Numeral

def chars (numeral : Numeral) : List Char := numeral.sign.chars ++ numeral.digits

instance : ToString Numeral := ⟨fun numeral => String.ofList numeral.chars⟩

/-- What the digits are worth. -/
def magnitude (numeral : Numeral) : Nat := Nat.ofDigitChars 10 numeral.digits 0

def value (numeral : Numeral) : Int := numeral.sign.apply numeral.magnitude

end Numeral

/-- Does a value fit in one bit for the sign and so many others? -/
def Fits (bits : Nat) (value : Int) : Prop := -2 ^ bits ≤ value ∧ value < 2 ^ bits

instance (bits : Nat) (value : Int) : Decidable (Fits bits value) :=
  inferInstanceAs (Decidable (_ ∧ _))

theorem digit?_of_isDigit {c : Char} (decimal : c.isDigit = true) :
    digit? c = some (c.toNat - '0'.toNat) := by
  have range : '0' ≤ c ∧ c ≤ '9' := by simpa [Char.isDigit, Char.le_def] using decimal
  rw [digit?, if_pos range]

theorem digitsFrom?_eq {digits : List Char} (decimal : ∀ c ∈ digits, c.isDigit = true)
    (value : Nat) : digitsFrom? value digits = some (Nat.ofDigitChars 10 digits value) := by
  induction digits generalizing value with
  | nil => rfl
  | cons c digits ih =>
    rw [List.forall_mem_cons] at decimal
    rw [digitsFrom?, digit?_of_isDigit decimal.1]
    exact ih decimal.2 _

theorem isBlank_of_isDigit {c : Char} (decimal : c.isDigit = true) : isBlank c = false := by
  have range : 48 ≤ c.toNat ∧ c.toNat ≤ 57 := by
    simp only [Char.isDigit, Bool.and_eq_true, decide_eq_true_eq, ge_iff_le,
      UInt32.le_iff_toNat_le] at decimal
    exact decimal
  simp only [isBlank, Bool.or_eq_false_iff, Bool.and_eq_false_iff, decide_eq_false_iff_not,
    beq_eq_false_iff_ne]
  omega

/-- Out of range, a value takes more bits than there are. -/
theorem le_natAbs_of_not_fits {bits : Nat} {value : Int} (unfit : ¬ Fits bits value) :
    2 ^ bits ≤ value.natAbs := by
  have bound : ((2 ^ bits : Nat) : Int) = 2 ^ bits := by push_cast; rfl
  unfold Fits at unfit
  omega

namespace Numeral

variable (numeral : Numeral)

theorem isDigit_or_sign {c : Char} (member : c ∈ numeral.chars) :
    c.isDigit = true ∨ c = '+' ∨ c = '-' := by
  rcases List.mem_append.mp member with sign | digit
  · revert sign
    cases numeral.sign <;> simp +contextual [Sign.chars]
  · exact .inl (numeral.decimal c digit)

theorem solid_chars : Solid numeral.chars := by
  intro c member
  rcases numeral.isDigit_or_sign member with decimal | rfl | rfl
  · exact isBlank_of_isDigit decimal
  · decide
  · decide

theorem chars_ne_nil : numeral.chars ≠ [] := by simp [chars, numeral.present]

/-- It ends in a digit, and so in no letter that says how to read it. -/
theorem dropLast?_chars {small large : Char} (letter : small.isDigit = false)
    (letter' : large.isDigit = false) :
    dropLast? (fun c => c = small || c = large) numeral.chars = none := by
  have last : numeral.chars.getLast? = some (numeral.digits.getLast numeral.present) := by
    rw [chars, List.getLast?_append, List.getLast?_eq_some_getLast numeral.present]
    rfl
  have decimal := numeral.decimal _ (List.getLast_mem numeral.present)
  have other {c : Char} (letter : c.isDigit = false) : numeral.digits.getLast numeral.present ≠ c :=
    fun same => by simp [same, letter] at decimal
  simp [dropLast?, last, other letter, other letter']

theorem digits?_eq : digits? numeral.digits = some numeral.magnitude := by
  unfold digits?
  split
  · rename_i none
    exact absurd none numeral.present
  · exact digitsFrom?_eq numeral.decimal 0

/-- No digit is taken for a sign. -/
theorem head?_digits {c : Char} (other : c.isDigit = false) : numeral.digits.head? ≠ some c := by
  intro begins
  have decimal := numeral.decimal c (List.mem_of_mem_head? begins)
  rw [other] at decimal
  cases decimal

theorem digits_ne_cons {c : Char} (other : c.isDigit = false) (rest : List Char) :
    numeral.digits ≠ c :: rest := by
  intro begins
  exact numeral.head?_digits other (congrArg List.head? begins)

/-- A number with a sign is read if it fits, and then as its value. -/
theorem signed?_chars (bits : Nat) :
    signed? bits numeral.chars =
      if Fits bits numeral.value then some numeral.value else none := by
  have bound : Int.ofNat (1 <<< bits) = 2 ^ bits := by simp [Nat.one_shiftLeft]
  have filtered (value : Int) :
      (some value).filter (fun value => -(2 : Int) ^ bits ≤ value && value < 2 ^ bits) =
        if Fits bits value then some value else none := by
    simp only [Option.filter, Bool.and_eq_true, decide_eq_true_eq]
    rfl
  have digits := numeral.digits?_eq
  unfold signed? chars value
  simp only [bound]
  cases numeral.sign with
  | none =>
    simp only [Sign.chars, Sign.apply, List.nil_append]
    split
    · rename_i rest signed
      exact absurd signed (numeral.digits_ne_cons (by decide) rest)
    · rename_i rest signed
      exact absurd signed (numeral.digits_ne_cons (by decide) rest)
    · rw [digits]
      exact filtered numeral.magnitude
  | plus =>
    simp only [Sign.chars, Sign.apply, List.singleton_append, digits]
    exact filtered numeral.magnitude
  | minus =>
    simp only [Sign.chars, Sign.apply, List.singleton_append, digits]
    exact filtered (-numeral.magnitude)

end Numeral

end MethodFlow.Text
