import Mathlib.Data.List.TakeWhile
import MethodFlow.Decimal.Reader
import MethodFlow.Proofs.Decimal.Rounding
import MethodFlow.Proofs.Text.Numerals

namespace MethodFlow

open MethodFlow.Text (Sign Numeral)

/-- Does the sign ask for the opposite? -/
def Text.Sign.negative : Sign → Bool
  | .minus => true
  | _ => false

theorem Text.Numeral.natAbs_value (numeral : Numeral) :
    numeral.value.natAbs = numeral.magnitude := by
  unfold Numeral.value
  cases numeral.sign <;> simp [Sign.apply]

theorem Text.Numeral.negative_eq {numeral : Numeral} (positive : numeral.magnitude ≠ 0) :
    numeral.sign.negative = decide (numeral.value < 0) := by
  unfold Numeral.value
  cases numeral.sign with
  | none => simp [Sign.apply, Sign.negative, Int.not_lt.mpr]
  | plus => simp [Sign.apply, Sign.negative, Int.not_lt.mpr]
  | minus => simp [Sign.apply, Sign.negative, Nat.pos_of_ne_zero positive]

namespace Decimal

theorem toLower_of_isDigit {c : Char} (decimal : c.isDigit = true) : c.toLower = c := by
  have range : c.val ≤ '9'.val := by
    simp only [Char.isDigit, Bool.and_eq_true, decide_eq_true_eq] at decimal
    exact decimal.2
  have below : ¬ 'A'.val ≤ c.val := fun above =>
    absurd (UInt32.le_trans above range) (by decide)
  exact dif_neg fun inside => below inside.1

section Digits

variable (numeral : Numeral)

theorem map_toLower_digits : numeral.digits.map Char.toLower = numeral.digits :=
  (List.map_congr_left fun c member => toLower_of_isDigit (numeral.decimal c member)).trans
    (List.map_id _)

theorem spanDigits_digits : spanDigits numeral.digits = (numeral.digits, []) := by
  have digit : ∀ c ∈ numeral.digits, (Text.digit? c).isSome = true := fun c member => by
    simp [Text.digit?_of_isDigit (numeral.decimal c member)]
  simp only [spanDigits, Prod.mk.injEq, List.takeWhile_eq_self_iff, List.dropWhile_eq_nil_iff]
  exact ⟨digit, digit⟩

variable (format : Format) (negative : Bool)

/-- Digits are no name of infinity, and they need no point. -/
theorem unsignedNumber?_digits :
    unsignedNumber? format negative numeral.digits =
      some (ofDigits format negative numeral.digits 0) := by
  have unnamed {name : List Char} (c : Char) (begins : name.head? = some c)
      (other : c.isDigit = false) : numeral.digits ≠ name := by
    rintro same
    exact numeral.head?_digits other (same ▸ begins)
  have nan : numeral.digits ≠ "nan".toList := unnamed 'n' rfl (by decide)
  have inf : numeral.digits ≠ "inf".toList := unnamed 'i' rfl (by decide)
  have infinity : numeral.digits ≠ "infinity".toList := unnamed 'i' rfl (by decide)
  simp only [unsignedNumber?, map_toLower_digits, nan, inf, infinity, or_self, ↓reduceIte]
  simp [positional?, spanDigits_digits, numeral.present, exponent?]

theorem read?_chars :
    Binary.read? format numeral.chars =
      some (ofDigits format numeral.sign.negative numeral.digits 0) := by
  unfold Numeral.chars
  cases numeral.sign with
  | none =>
    simp only [Sign.chars, Sign.negative, List.nil_append]
    unfold Binary.read?
    split
    · rename_i rest signed
      exact absurd signed (numeral.digits_ne_cons (by decide) rest)
    · rename_i rest signed
      exact absurd signed (numeral.digits_ne_cons (by decide) rest)
    · exact unsignedNumber?_digits numeral format false
  | plus => exact unsignedNumber?_digits numeral format false
  | minus => exact unsignedNumber?_digits numeral format true

/-- Digits are infinite if there are too many of them, and otherwise rounded. -/
theorem ofDigits_digits (positive : numeral.magnitude ≠ 0) :
    ofDigits format negative numeral.digits 0 =
      if 400 < (Nat.toDigits 10 numeral.magnitude).length then .infinite negative
      else .ofQuotient format negative numeral.magnitude 1 := by
  have worth : Text.digitsFrom? 0 numeral.digits = some numeral.magnitude :=
    Text.digitsFrom?_eq numeral.decimal 0
  have long : (400 : Int) < ((Nat.toDigits 10 numeral.magnitude).length : Int) + 0 ↔
      400 < (Nat.toDigits 10 numeral.magnitude).length := by omega
  have short : ¬ ((Nat.toDigits 10 numeral.magnitude).length : Int) + 0 < -400 := by omega
  have whole : numeral.magnitude * Nat.pow 10 0 = numeral.magnitude := Nat.mul_one _
  unfold ofDigits
  simp only [worth, Option.getD_some, positive, long, short, ↓reduceIte]
  split
  · rfl
  · change Binary.ofQuotient format negative (numeral.magnitude * Nat.pow 10 0) 1 = _
    rw [whole]

end Digits

/-- A value of more than `count` digits is not below a power of two of up to `3 * count` bits. -/
theorem two_pow_le_of_long {bits count value : Nat} (positive : 0 < count)
    (narrow : bits ≤ 3 * count) (long : count < (Nat.toDigits 10 value).length) :
    2 ^ bits ≤ value := by
  rw [← Nat.not_le, Nat.length_toDigits_le_iff (by decide) positive, Nat.not_lt] at long
  calc 2 ^ bits
      ≤ 2 ^ (3 * count) := Nat.pow_le_pow_right (by decide) narrow
    _ = (2 ^ 3) ^ count := pow_mul 2 3 count
    _ ≤ 10 ^ count := Nat.pow_le_pow_left (by decide) count
    _ ≤ value := long

/-- An integer of full precision is read as the number that it is rounded to. -/
theorem roundsTo_read {format : Format} {highest : Nat} (spans : format.Spans highest)
    (narrow : format.precision + highest ≤ 3 * 400) {numeral : Numeral}
    (large : 2 ^ format.precision ≤ numeral.value.natAbs) :
    ∃ number, Binary.read? format numeral.chars = some number ∧
      RoundsTo format numeral.value number := by
  refine ⟨_, read?_chars numeral format, ?_⟩
  have positive : numeral.magnitude ≠ 0 := by
    have := Nat.two_pow_pos format.precision
    rw [numeral.natAbs_value] at large
    omega
  rw [ofDigits_digits numeral format _ positive, numeral.negative_eq positive]
  split
  · rename_i long
    refine .infinite spans.highest (beyond_of_pow_le ?_)
    rw [numeral.natAbs_value]
    exact two_pow_le_of_long (by decide) narrow long
  · rw [← numeral.natAbs_value]
    exact roundsTo_ofQuotient spans large

theorem spans_single : Format.single.Spans 104 := ⟨by decide, by decide, rfl⟩

theorem spans_double : Format.double.Spans 971 := ⟨by decide, by decide, rfl⟩

end Decimal

end MethodFlow
