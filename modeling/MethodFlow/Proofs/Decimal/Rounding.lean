import Mathlib.Tactic.Ring
import MethodFlow.Decimal.Binary

/-! Which floating-point number an integer becomes. An integer that takes more bits than a mantissa
has becomes the multiple of a power of two that is nearest to it, the even one of two, or infinity if
it is nearer to what would follow the largest number than to that number. -/

namespace MethodFlow.Decimal

/-- A multiple of a unit is nearest to a natural: it is at most half a unit away, and if it is just
that far, it is an even multiple. -/
structure Nearest (unit multiple value : Nat) : Prop where
  close : 2 * ((value : Int) - (multiple * unit : Nat)).natAbs ≤ unit
  even : 2 * ((value : Int) - (multiple * unit : Nat)).natAbs = unit → multiple % 2 = 0

theorem nearest_roundToEven (value : Nat) {unit : Nat} (positive : 0 < unit) :
    Nearest unit (roundToEven value unit) value := by
  have divided : unit * (value / unit) + value % unit = value := Nat.div_add_mod value unit
  have below : value % unit < unit := Nat.mod_lt value positive
  have next : (value / unit + 1) * unit = unit * (value / unit) + unit := by ring
  have whole : value / unit * unit = unit * (value / unit) := Nat.mul_comm _ _
  unfold roundToEven
  dsimp only
  split
  · constructor <;> omega
  split
  · constructor <;> omega
  · rcases Nat.mod_two_eq_zero_or_one (value / unit) with even | odd
    · rw [even, Nat.add_zero]
      constructor <;> omega
    · rw [odd]
      constructor <;> omega

/-- Of twice the unit half as many are as near, which is nearer than half of it. -/
theorem Nearest.halve {unit multiple value : Nat} (nearest : Nearest unit (2 * multiple) value)
    (positive : 0 < unit) : Nearest (2 * unit) multiple value := by
  have same : multiple * (2 * unit) = 2 * multiple * unit := by ring
  have close := nearest.close
  rw [← same] at close
  constructor <;> omega

theorem roundToEven_bounds (value unit : Nat) :
    value / unit ≤ roundToEven value unit ∧ roundToEven value unit ≤ value / unit + 1 := by
  unfold roundToEven
  dsimp only
  repeat' split
  all_goals omega

/-- A value of `shift + precision + 1` bits is rounded to a multiple of `precision + 1` bits, or to
the power of two after those. -/
theorem roundToEven_within {precision shift value : Nat} (lower : 2 ^ (shift + precision) ≤ value)
    (upper : value < 2 ^ (shift + (precision + 1))) :
    2 ^ precision ≤ roundToEven value (2 ^ shift) ∧
      roundToEven value (2 ^ shift) ≤ 2 ^ (precision + 1) := by
  obtain ⟨most, least⟩ := roundToEven_bounds value (2 ^ shift)
  have full : 2 ^ precision ≤ value / 2 ^ shift := by
    rw [Nat.le_div_iff_mul_le (Nat.two_pow_pos shift), ← pow_add, Nat.add_comm]
    exact lower
  have fits : value / 2 ^ shift < 2 ^ (precision + 1) := by
    rw [Nat.div_lt_iff_lt_mul (Nat.two_pow_pos shift), ← pow_add, Nat.add_comm]
    exact upper
  omega

/-- The number of a format that an integer of full precision is rounded to. -/
inductive RoundsTo (format : Format) (value : Int) : Binary → Prop
  | finite {mantissa exponent : Nat} (full : 2 ^ (format.precision - 1) ≤ mantissa)
      (fits : mantissa < 2 ^ format.precision) (low : (exponent : Int) ≤ format.highest)
      (nearest : Nearest (2 ^ exponent) mantissa value.natAbs) :
      RoundsTo format value (.finite (value < 0) mantissa exponent)
  | infinite {exponent : Nat} (highest : format.highest = exponent)
      (beyond : (2 ^ (format.precision + 1) - 1) * 2 ^ exponent ≤ 2 * value.natAbs) :
      RoundsTo format value (.infinite (value < 0))

/-- A format with mantissas of more than one bit whose exponents reach below and above zero. -/
structure Format.Spans (format : Format) (highest : Nat) : Prop where
  precise : 2 ≤ format.precision
  lowest : format.lowest ≤ 0
  highest : format.highest = highest

theorem floorLog2_one {value : Nat} (positive : value ≠ 0) :
    floorLog2 value 1 = (value.log2 : Int) := by
  have one : Nat.log2 1 = 0 := by decide
  have below : 2 ^ value.log2 ≤ value := Nat.log2_self_le positive
  unfold floorLog2
  simp only [one, Nat.cast_zero, sub_zero]
  cases log : value.log2 with
  | zero => simp [scaled, positive]
  | succ count =>
    have scale : scaled value 1 (-((count + 1 : Nat) : Int)) = (value, 1 <<< (count + 1)) := rfl
    rw [log] at below
    rw [scale, Nat.one_shiftLeft]
    simp only [Nat.not_lt.mpr below, ↓reduceIte]

theorem scaled_neg (value shift : Nat) : scaled value 1 (-(shift : Int)) = (value, 2 ^ shift) := by
  cases shift with
  | zero => rfl
  | succ count =>
    rw [← Nat.one_shiftLeft]
    rfl

/-- An integer of full precision is rounded to a mantissa times a power of two. -/
theorem ofQuotient_one {format : Format} {highest value : Nat} (spans : format.Spans highest)
    (large : 2 ^ format.precision ≤ value) (negative : Bool) :
    ∃ shift, 2 ^ (shift + format.precision - 1) ≤ value ∧ value < 2 ^ (shift + format.precision) ∧
      Binary.ofQuotient format negative value 1 =
        let mantissa := roundToEven value (2 ^ shift)
        let (mantissa, exponent) :=
          if mantissa = 2 ^ format.precision then (2 ^ (format.precision - 1), shift + 1)
          else (mantissa, shift)
        if highest < exponent then .infinite negative else .finite negative mantissa exponent := by
  have positive : value ≠ 0 := by
    have := Nat.two_pow_pos format.precision
    omega
  have precise : format.precision ≤ value.log2 := (Nat.le_log2 positive).mpr large
  obtain ⟨shift, log⟩ : ∃ shift, value.log2 + 1 = shift + format.precision :=
    ⟨value.log2 + 1 - format.precision, by omega⟩
  have exponent : max format.lowest ((value.log2 : Int) - ((format.precision : Int) - 1)) = shift := by
    have := spans.lowest
    omega
  refine ⟨shift, ?_, ?_, ?_⟩
  · rw [← log]
    exact Nat.log2_self_le positive
  · rw [← log]
    exact Nat.lt_log2_self
  · unfold Binary.ofQuotient
    simp only [positive, ↓reduceIte, floorLog2_one positive, exponent, scaled_neg, Nat.one_shiftLeft,
      spans.highest]
    split
    · simp only [← Nat.cast_succ, Nat.cast_lt]
    · simp only [Nat.cast_lt]

/-- What is rounded to a power of two is at most half a unit below it. -/
theorem Nearest.beyond {precision shift value : Nat}
    (nearest : Nearest (2 ^ shift) (2 ^ precision) value) :
    (2 ^ (precision + 1) - 1) * 2 ^ shift ≤ 2 * value := by
  have close := nearest.close
  have next : (2 ^ (precision + 1) - 1) * 2 ^ shift + 2 ^ shift =
      2 * (2 ^ precision * 2 ^ shift) := by
    rw [← Nat.succ_mul, Nat.succ_eq_add_one, Nat.sub_add_cancel Nat.one_le_two_pow]
    ring
  omega

theorem beyond_of_le {precision highest shift value : Nat} (high : highest ≤ shift)
    (beyond : (2 ^ (precision + 1) - 1) * 2 ^ shift ≤ 2 * value) :
    (2 ^ (precision + 1) - 1) * 2 ^ highest ≤ 2 * value :=
  (Nat.mul_le_mul_left _ (Nat.pow_le_pow_right (by decide) high)).trans beyond

theorem beyond_of_pow_le {precision highest value : Nat}
    (reaches : 2 ^ (precision + highest) ≤ value) :
    (2 ^ (precision + 1) - 1) * 2 ^ highest ≤ 2 * value :=
  calc (2 ^ (precision + 1) - 1) * 2 ^ highest
      ≤ 2 ^ (precision + 1) * 2 ^ highest := Nat.mul_le_mul_right _ (Nat.sub_le _ _)
    _ = 2 * 2 ^ (precision + highest) := by ring
    _ ≤ 2 * value := Nat.mul_le_mul_left 2 reaches

/-- An integer of full precision becomes the number that it is rounded to. -/
theorem roundsTo_ofQuotient {format : Format} {highest : Nat} (spans : format.Spans highest)
    {value : Int} (large : 2 ^ format.precision ≤ value.natAbs) :
    RoundsTo format value (.ofQuotient format (value < 0) value.natAbs 1) := by
  obtain ⟨shift, lower, upper, same⟩ := ofQuotient_one spans large (decide (value < 0))
  obtain ⟨precision, precise⟩ : ∃ precision, format.precision = precision + 1 :=
    ⟨format.precision - 1, by have := spans.precise; omega⟩
  have nearest := nearest_roundToEven value.natAbs (Nat.two_pow_pos shift)
  obtain ⟨full, fits⟩ : 2 ^ precision ≤ roundToEven value.natAbs (2 ^ shift) ∧
      roundToEven value.natAbs (2 ^ shift) ≤ 2 ^ format.precision := by
    rw [precise] at lower upper ⊢
    exact roundToEven_within lower upper
  rw [same]
  generalize roundToEven value.natAbs (2 ^ shift) = mantissa at nearest full fits
  dsimp only
  -- Rounding up may carry into the next power of two, which is kept with the exponent after.
  by_cases whole : mantissa = 2 ^ format.precision
  · subst whole
    rw [if_pos rfl]
    dsimp only
    split
    · rename_i high
      exact .infinite spans.highest (beyond_of_le (Nat.lt_succ_iff.mp high) nearest.beyond)
    · rename_i low
      refine .finite le_rfl (Nat.pow_lt_pow_right (by decide) (by omega)) ?_ ?_
      · rw [spans.highest]
        exact_mod_cast Nat.not_lt.mp low
      · rw [precise, pow_succ' 2 precision] at nearest
        rw [precise, Nat.add_sub_cancel, pow_succ' 2 shift]
        exact nearest.halve (Nat.two_pow_pos shift)
  · rw [if_neg whole]
    dsimp only
    split
    · rename_i high
      refine .infinite spans.highest (beyond_of_pow_le ?_)
      exact (Nat.pow_le_pow_right (by decide) (by omega)).trans lower
    · rename_i low
      refine .finite ?_ (by omega) ?_ nearest
      · rw [precise, Nat.add_sub_cancel]
        exact full
      · rw [spans.highest]
        exact_mod_cast Nat.not_lt.mp low

end MethodFlow.Decimal
