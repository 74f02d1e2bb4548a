import MethodFlow.Decimal.Binary

/-! The fewest decimal digits that read back to the same floating-point number, and the nearest to
it of those. The digits are found in exact arithmetic: on the grid of `k` digits, one of the two
neighbours of the number lies among the reals that round to it, or no point of that grid does. -/

namespace MethodFlow.Decimal

/-- Significant digits and the place of the point: `0.d₁d₂… · 10^point`. -/
structure Digits where
  digits : List Char
  point : Int
deriving DecidableEq, Repr

/-- The reals that round to a number, in quarters of its last place. The lower half is as wide as
the last place below a power of two, which is half as wide. -/
structure Neighbourhood where
  center : Nat
  below : Nat
  above : Nat
  closed : Bool

/-- The neighbourhood of `mantissa · 2^exponent` in a format. -/
def neighbourhood (format : Format) (mantissa : Nat) (exponent : Int) : Neighbourhood :=
  let atPower := mantissa = 1 <<< (format.precision - 1) && format.lowest < exponent
  { center := 4 * mantissa
    below := 4 * mantissa - (if atPower then 1 else 2)
    above := 4 * mantissa + 2
    closed := mantissa % 2 = 0 }

/-- Is `point · unitTop / unitBottom` among the reals that round to the number? -/
def Neighbourhood.admits (n : Neighbourhood) (point unitTop unitBottom : Nat) : Bool :=
  let value := point * unitTop
  if n.closed then n.below * unitBottom ≤ value && value ≤ n.above * unitBottom
  else n.below * unitBottom < value && value < n.above * unitBottom

/-- The unit `10^place` of a grid in quarters of the last place, as a quotient. -/
def gridUnit (place exponent : Int) : Nat × Nat :=
  let (top, bottom) :=
    match place with
    | .ofNat e => (Nat.pow 10 e, 1)
    | .negSucc e => (1, Nat.pow 10 (e + 1))
  scaled top bottom (2 - exponent)

/-- The point of a grid that is nearest to the number among those that read back, if any. Of two at
the same distance it is the larger. -/
def nearestOnGrid (n : Neighbourhood) (exponent place : Int) : Option Nat :=
  let (unitTop, unitBottom) := gridUnit place exponent
  let center := n.center * unitBottom
  let low := center / unitTop
  let admitsLow := n.admits low unitTop unitBottom
  let admitsHigh := n.admits (low + 1) unitTop unitBottom
  if admitsLow && admitsHigh then
    some (if center - low * unitTop < (low + 1) * unitTop - center then low else low + 1)
  else if admitsHigh then some (low + 1)
  else if admitsLow then some low
  else none

/-- The first point found on the grids of more and more digits, with its place. -/
def searchGrids (n : Neighbourhood) (exponent point : Int) : Nat → Nat → Option (Nat × Int)
  | _, 0 => none
  | count, more + 1 =>
    let place := point - count
    match nearestOnGrid n exponent place with
    | some found => some (found, place)
    | none => searchGrids n exponent point (count + 1) more

/-- How many decimal places stand before the point of a positive number: the least `p` with the
number below `10^p`. -/
def decimalPoint (mantissa : Nat) (exponent : Int) : Int :=
  let (top, bottom) := scaled mantissa 1 exponent
  let whole := top / bottom
  if whole ≠ 0 then (Nat.toDigits 10 whole).length
  else
    -- The inverse has `width` digits before its point, and may be a power of ten itself.
    let width := (Nat.toDigits 10 (bottom / top)).length
    if Nat.pow 10 (width - 1) * top < bottom then 1 - (width : Int) else 2 - (width : Int)

/-- Shortest digits of a positive finite number. Two formats of the same values differ only in how
far a number is from its neighbours. -/
def shortest (format : Format) (mantissa : Nat) (exponent : Int) : Digits :=
  let point := decimalPoint mantissa exponent
  match searchGrids (neighbourhood format mantissa exponent) exponent point 1 20 with
  | none => ⟨[], point⟩
  | some (found, place) =>
    let written := Nat.toDigits 10 found
    ⟨(written.reverse.dropWhile (· == '0')).reverse, place + written.length⟩

end MethodFlow.Decimal
