import MethodFlow.Proofs.Decimal.Reading
import MethodFlow.Proofs.Listing.Bodies

/-! Integers as constants. An integer that fits is loaded as it is. One that does not is no fault: it
is read as a floating-point number, as if it were written with a point. -/

namespace MethodFlow.Listing

open MethodFlow.Text
open MethodFlow.Decimal (Binary RoundsTo roundsTo_read spans_single spans_double)

section Readers

variable (numeral : Numeral)

/-- No numeral is a keyword or begins as a string. -/
theorem readConstant_chars :
    readConstant numeral.chars = readNumber numeral.chars numeral.chars := by
  have other {word : List Char} (c : Char) (member : c ∈ word)
      (apart : c.isDigit = false ∧ c ≠ '+' ∧ c ≠ '-') : numeral.chars ≠ word := by
    rintro rfl
    rcases numeral.isDigit_or_sign member with decimal | sign | sign
    · exact absurd decimal (by simp [apart.1])
    · exact apart.2.1 sign
    · exact apart.2.2 sign
  have word : splitWord numeral.chars = (numeral.chars, []) := by
    rw [splitWord, cutAt_eq_self numeral.solid_chars]
  have noClass : numeral.chars ≠ "class".toList := other 'c' (by decide) (by decide)
  have noType : numeral.chars ≠ "methodtype".toList := other 'm' (by decide) (by decide)
  have noHandle : numeral.chars ≠ "methodhandle".toList := other 'm' (by decide) (by decide)
  unfold readConstant
  split
  · rename_i rest quoted
    exact absurd quoted (other '"' (by simp) (by decide))
  · simp only [word, noClass, noType, noHandle, ↓reduceIte, List.isEmpty_nil]

theorem readNumber_chars :
    readNumber numeral.chars numeral.chars =
      if Fits 31 numeral.value then .ok (.integer numeral.value)
      else orFault (.invalidConstant numeral.chars)
        ((Binary.read? .single numeral.chars).map .float) := by
  have noFloat : dropLast? (fun c => c = 'f' || c = 'F') numeral.chars = none :=
    numeral.dropLast?_chars (by decide) (by decide)
  unfold readNumber
  rw [numeral.signed?_chars]
  by_cases fits : Fits 31 numeral.value
  · simp only [if_pos fits]
  · simp only [if_neg fits, noFloat, Option.getD_none]

/-- No numeral ends in a letter that decides between `long` and `double`. -/
theorem readWideConstant_chars :
    readWideConstant numeral.chars =
      if Fits 63 numeral.value then .ok (.long numeral.value) else readDouble numeral.chars := by
  have noLong : dropLast? (fun c => c = 'l' || c = 'L') numeral.chars = none :=
    numeral.dropLast?_chars (by decide) (by decide)
  have noDouble : dropLast? (fun c => c = 'd' || c = 'D') numeral.chars = none :=
    numeral.dropLast?_chars (by decide) (by decide)
  simp only [readWideConstant, noLong, noDouble]
  rw [numeral.signed?_chars]
  by_cases fits : Fits 63 numeral.value
  · simp only [if_pos fits]
  · simp only [if_neg fits]

variable {numeral}

/-- What does not fit has more digits than a mantissa, and is rounded. -/
theorem readConstant_of_not_fits (unfit : ¬ Fits 31 numeral.value) :
    ∃ number, RoundsTo .single numeral.value number ∧
      readConstant numeral.chars = .ok (.float number) := by
  have large : 2 ^ 24 ≤ numeral.value.natAbs :=
    le_trans (by decide) (le_natAbs_of_not_fits unfit)
  obtain ⟨number, read, rounds⟩ := roundsTo_read spans_single (by decide) large
  refine ⟨number, rounds, ?_⟩
  rw [readConstant_chars, readNumber_chars, if_neg unfit, read]
  rfl

theorem readWideConstant_of_not_fits (unfit : ¬ Fits 63 numeral.value) :
    ∃ number, RoundsTo .double numeral.value number ∧
      readWideConstant numeral.chars = .ok (.double number) := by
  have large : 2 ^ 53 ≤ numeral.value.natAbs :=
    le_trans (by decide) (le_natAbs_of_not_fits unfit)
  obtain ⟨number, read, rounds⟩ := roundsTo_read spans_double (by decide) large
  refine ⟨number, rounds, ?_⟩
  rw [readWideConstant_chars, if_neg unfit, readDouble, read]
  rfl

end Readers

theorem toList_numeral (numeral : Numeral) : (toString numeral).toList = numeral.chars :=
  String.toList_ofList

theorem head?_numeral (numeral : Numeral) : numeral.chars.head? ≠ some ';' := by
  intro begins
  rcases numeral.isDigit_or_sign (List.mem_of_mem_head? begins) with decimal | sign | sign
  · exact absurd decimal (by decide)
  · exact absurd sign (by decide)
  · exact absurd sign (by decide)

section Loads

variable {owner : BinaryName} {header : String} {progress : Progress} {method : OpenMethod}
  (opens : progress.Opens owner header method) (numeral : Numeral)
include opens

/-- What is read from a numeral as the only argument of a mnemonic is read from such a line. -/
theorem parse_numeral {mnemonic : String} {form : Form} {op : Operation} {method' : OpenMethod}
    (named : form? mnemonic.toList = some form)
    (read : Statement.operation ⟨mnemonic.toList, numeral.chars, [numeral.chars]⟩ method form =
      .ok (op, method')) :
    parse (bodied header (mnemonic ++ " " ++ toString numeral)) owner =
      .ok (progress.listing owner (method'.push (.operation op))) := by
  rw [← toList_numeral] at read
  refine parse_word opens named ?_ ?_ ?_ read
  · rw [toList_numeral]
    exact numeral.solid_chars
  · rw [toList_numeral]
    exact numeral.chars_ne_nil
  · rw [toList_numeral]
    exact head?_numeral numeral

variable {constant : Constant}

theorem parse_loadConstant (read : readConstant numeral.chars = .ok constant) :
    parse (bodied header ("ldc " ++ toString numeral)) owner =
      .ok (progress.listing owner (method.push (.instruction (.loadConstant constant)))) := by
  have spaced : "ldc " = "ldc" ++ " " := rfl
  rw [spaced]
  refine parse_numeral opens numeral (form?_eq_constant.mpr (.inl rfl)) ?_
  simp only [Statement.operation, read]
  rfl

theorem parse_loadWideConstant (read : readWideConstant numeral.chars = .ok constant) :
    parse (bodied header ("ldc2_w " ++ toString numeral)) owner =
      .ok (progress.listing owner (method.push (.instruction (.loadWideConstant constant)))) := by
  have spaced : "ldc2_w " = "ldc2_w" ++ " " := rfl
  have named : form? "ldc2_w".toList = some .wideConstant := rfl
  rw [spaced]
  refine parse_numeral opens numeral named ?_
  simp only [Statement.operation, Statement.oneArgument]
  change Except.map _ (Except.map _ (readWideConstant numeral.chars)) = _
  rw [read]
  rfl

/-- An integer is loaded as such if it fits in a constant of the size asked for. If it does not fit,
the number that is nearest to it is loaded. -/
theorem parse_integer :
    (Fits 31 numeral.value →
      parse (bodied header ("ldc " ++ toString numeral)) owner =
        .ok (progress.listing owner
          (method.push (.instruction (.loadConstant (.integer numeral.value)))))) ∧
    (¬ Fits 31 numeral.value → ∃ number, RoundsTo .single numeral.value number ∧
      parse (bodied header ("ldc " ++ toString numeral)) owner =
        .ok (progress.listing owner
          (method.push (.instruction (.loadConstant (.float number)))))) ∧
    (Fits 63 numeral.value →
      parse (bodied header ("ldc2_w " ++ toString numeral)) owner =
        .ok (progress.listing owner
          (method.push (.instruction (.loadWideConstant (.long numeral.value)))))) ∧
    (¬ Fits 63 numeral.value → ∃ number, RoundsTo .double numeral.value number ∧
      parse (bodied header ("ldc2_w " ++ toString numeral)) owner =
        .ok (progress.listing owner
          (method.push (.instruction (.loadWideConstant (.double number)))))) := by
  refine ⟨fun fits => ?_, fun unfit => ?_, fun fits => ?_, fun unfit => ?_⟩
  · refine parse_loadConstant opens numeral ?_
    rw [readConstant_chars, readNumber_chars, if_pos fits]
  · obtain ⟨number, rounds, read⟩ := readConstant_of_not_fits unfit
    exact ⟨number, rounds, parse_loadConstant opens numeral read⟩
  · refine parse_loadWideConstant opens numeral ?_
    rw [readWideConstant_chars, if_pos fits]
  · obtain ⟨number, rounds, read⟩ := readWideConstant_of_not_fits unfit
    exact ⟨number, rounds, parse_loadWideConstant opens numeral read⟩

end Loads

/-- A header of a method without code so far. -/
def numberHeader : String := ".method static m()V"

/-- The least integer of 32 bits. -/
def leastInteger : Numeral := ⟨.minus, "2147483648".toList, by decide, List.all_eq_true.mp (by decide)⟩

/-- One more than the largest integer of 64 bits, with a sign and a zero in front. -/
def beyondLong : Numeral := ⟨.plus, "09223372036854775808".toList, by decide, List.all_eq_true.mp (by decide)⟩

/-- One is loaded as it is, the other one as a number of one or of two slots. -/
theorem parse_integer_extremes : ∃ (progress : Progress) (method : OpenMethod),
    progress.Opens .main numberHeader method ∧
    Fits 31 leastInteger.value ∧ ¬ Fits 63 beyondLong.value ∧
    parse (bodied numberHeader "ldc -2147483648") .main =
      .ok (progress.listing .main
        (method.push (.instruction (.loadConstant (.integer (-2147483648)))))) ∧
    parse (bodied numberHeader "ldc2_w -2147483648") .main =
      .ok (progress.listing .main
        (method.push (.instruction (.loadWideConstant (.long (-2147483648)))))) ∧
    (∃ number, RoundsTo .single 9223372036854775808 number ∧
      parse (bodied numberHeader "ldc +09223372036854775808") .main =
        .ok (progress.listing .main
          (method.push (.instruction (.loadConstant (.float number)))))) ∧
    ∃ number, RoundsTo .double 9223372036854775808 number ∧
      parse (bodied numberHeader "ldc2_w +09223372036854775808") .main =
        .ok (progress.listing .main
          (method.push (.instruction (.loadWideConstant (.double number))))) := by
  obtain ⟨progress, method, opens⟩ :
      ∃ (progress : Progress) (method : OpenMethod), progress.Opens .main numberHeader method :=
    Progress.exists_opens (by decide +kernel)
  obtain ⟨integer, -, long, -⟩ := parse_integer opens leastInteger
  obtain ⟨-, float, -, double⟩ := parse_integer opens beyondLong
  exact ⟨progress, method, opens, by decide, by decide, integer (by decide), long (by decide),
    float (by decide), double (by decide)⟩

/-- One more than the largest integer of 32 bits. -/
def beyondInteger : Numeral := ⟨.none, "2147483648".toList, by decide, List.all_eq_true.mp (by decide)⟩

/-- It is accepted, and the constant is no integer. -/
theorem beyondInteger_float : ¬ Fits 31 beyondInteger.value ∧
    ∃ listing, parse (bodied numberHeader ("ldc " ++ toString beyondInteger)) .main = .ok listing ∧
      (listing.methods.map fun entry => entry.2.method.nodes) =
        [[.instruction (.loadConstant (.float (.finite false 8388608 8)))]] := by
  have read : (parse (bodied numberHeader ("ldc " ++ toString beyondInteger)) .main).toOption.map
        (fun listing => listing.methods.map fun entry => entry.2.method.nodes) =
      some [[.instruction (.loadConstant (.float (.finite false 8388608 8)))]] := by
    decide +kernel
  refine ⟨by decide, ?_⟩
  cases accepted : parse (bodied numberHeader ("ldc " ++ toString beyondInteger)) .main with
  | error failure => simp [accepted, Except.toOption] at read
  | ok listing =>
    refine ⟨listing, rfl, ?_⟩
    simpa [accepted, Except.toOption] using read

end MethodFlow.Listing
