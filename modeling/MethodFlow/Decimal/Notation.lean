import MethodFlow.Decimal.Shortest

/-! How a floating-point constant is shown: its shortest digits, positional from 10^-4 up to 10^16
and always with a fraction, otherwise with one digit before the point and an exponent. -/

namespace MethodFlow.Decimal

private def zeros (count : Nat) : List Char := List.replicate count '0'

/-- Digits in positional notation, with at least one digit on either side of the point. -/
def Digits.positional (d : Digits) : List Char :=
  match d.point with
  | .ofNat point =>
    if point = 0 then ['0', '.'] ++ d.digits
    else
      let whole := d.digits.take point
      let fraction := d.digits.drop point
      whole ++ zeros (point - whole.length) ++ ['.'] ++
        (if fraction.isEmpty then ['0'] else fraction)
  | .negSucc missing => ['0', '.'] ++ zeros (missing + 1) ++ d.digits

/-- Digits with an exponent of ten; a single digit goes without a point. -/
def Digits.scientific (d : Digits) : List Char :=
  let fraction := d.digits.drop 1
  d.digits.take 1 ++ (if fraction.isEmpty then [] else '.' :: fraction) ++ ['e'] ++
    (toString (d.point - 1)).toList

/-- Constants are positional from 10^-4 up to 10^16. -/
def Digits.shown (d : Digits) : List Char :=
  if -3 ≤ d.point ∧ d.point ≤ 16 then d.positional else d.scientific

/-- The shown form of a number of a format. -/
def Binary.shown (format : Format) : Binary → String
  | .nan => "NaN"
  | .infinite negative => if negative then "-inf" else "inf"
  | .finite negative mantissa exponent =>
    let magnitude :=
      if mantissa = 0 then "0.0".toList else (shortest format mantissa exponent).shown
    String.ofList (if negative then '-' :: magnitude else magnitude)

end MethodFlow.Decimal
