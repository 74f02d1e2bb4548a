/-! Binary floating-point numbers as exact values: a sign, a mantissa and the exponent of its lowest
bit. A quotient of naturals is rounded to the nearest such number, a tie to the even mantissa. -/

namespace MethodFlow.Decimal

/-- How many bits a mantissa has, and which exponents its lowest bit may have. -/
structure Format where
  precision : Nat
  lowest : Int
  highest : Int
deriving DecidableEq, Repr

/-- Single precision: 24 bits. -/
def Format.single : Format := ⟨24, -149, 104⟩

/-- Double precision: 53 bits. -/
def Format.double : Format := ⟨53, -1074, 971⟩

/-- A floating-point number: `finite negative m q` is m · 2^q, negated if asked. -/
inductive Binary where
  | nan
  | infinite (negative : Bool)
  | finite (negative : Bool) (mantissa : Nat) (exponent : Int)
deriving DecidableEq, Repr

/-- A quotient of naturals times a power of two, as a numerator and a denominator. -/
def scaled (numerator denominator : Nat) (exponent : Int) : Nat × Nat :=
  match exponent with
  | .ofNat e => (numerator <<< e, denominator)
  | .negSucc e => (numerator, denominator <<< (e + 1))

/-- The natural nearest to a quotient, the even one of two at the same distance. -/
def roundToEven (numerator denominator : Nat) : Nat :=
  let whole := numerator / denominator
  let twice := 2 * (numerator % denominator)
  if twice < denominator then whole
  else if denominator < twice then whole + 1
  else whole + whole % 2

/-- Exponent of the highest power of two that is not above a positive quotient. -/
def floorLog2 (numerator denominator : Nat) : Int :=
  let guess := (numerator.log2 : Int) - denominator.log2
  let (top, bottom) := scaled numerator denominator (-guess)
  if top < bottom then guess - 1 else guess

/-- The number of a format nearest to a quotient with a positive denominator. -/
def Binary.ofQuotient (format : Format) (negative : Bool) (numerator denominator : Nat) : Binary :=
  if numerator = 0 then .finite negative 0 format.lowest
  else
    let exponent := max format.lowest (floorLog2 numerator denominator - (format.precision - 1))
    let (top, bottom) := scaled numerator denominator (-exponent)
    let mantissa := roundToEven top bottom
    let (mantissa, exponent) :=
      if mantissa = 1 <<< format.precision then (1 <<< (format.precision - 1), exponent + 1)
      else (mantissa, exponent)
    if format.highest < exponent then .infinite negative
    else .finite negative mantissa exponent

end MethodFlow.Decimal
