import MethodFlow.Decimal.Binary
import MethodFlow.Text.Numeral

/-! Floating-point numbers written in decimal: an optional sign, then a name of infinity or of the
number that is none in any case of letters, or digits with an optional point and exponent. -/

namespace MethodFlow.Decimal

open MethodFlow.Text (digit? digitsFrom? digits?)

/-- The leading digits and what follows them. -/
def spanDigits (text : List Char) : List Char × List Char :=
  (text.takeWhile fun c => (digit? c).isSome, text.dropWhile fun c => (digit? c).isSome)

/-- The exponent of an `e` part; zero where the text has ended. -/
def exponent? : List Char → Option Int
  | [] => some 0
  | mark :: rest =>
    if mark = 'e' ∨ mark = 'E' then
      match rest with
      | '+' :: ds => (digits? ds).map Int.ofNat
      | '-' :: ds => (digits? ds).map fun value => -Int.ofNat value
      | ds => (digits? ds).map Int.ofNat
    else none

/-- Digits worth `digits · 10^exponent`. Beyond 10^400 and below 10^-400 every format has only
infinity and zero, so the power is not computed there. -/
def ofDigits (format : Format) (negative : Bool) (digits : List Char) (exponent : Int) : Binary :=
  let value := (digitsFrom? 0 digits).getD 0
  let magnitude : Int := (Nat.toDigits 10 value).length + exponent
  if value = 0 then .finite negative 0 format.lowest
  else if 400 < magnitude then .infinite negative
  else if magnitude < -400 then .finite negative 0 format.lowest
  else
    match exponent with
    | .ofNat e => .ofQuotient format negative (value * Nat.pow 10 e) 1
    | .negSucc e => .ofQuotient format negative value (Nat.pow 10 (e + 1))

/-- Digits with a point somewhere among or beside them, at least one in all. -/
def positional? (format : Format) (negative : Bool) (text : List Char) : Option Binary :=
  let (whole, rest) := spanDigits text
  let (fraction, rest) :=
    match rest with
    | '.' :: after => spanDigits after
    | _ => ([], rest)
  if whole.isEmpty && fraction.isEmpty then none
  else
    (exponent? rest).map fun e => ofDigits format negative (whole ++ fraction) (e - fraction.length)

/-- A number without its sign. -/
def unsignedNumber? (format : Format) (negative : Bool) (text : List Char) : Option Binary :=
  let lower := text.map Char.toLower
  if lower = "nan".toList then some .nan
  else if lower = "inf".toList ∨ lower = "infinity".toList then some (.infinite negative)
  else positional? format negative text

/-- The number of a format nearest to the one written. -/
def Binary.read? (format : Format) : List Char → Option Binary
  | '-' :: rest => unsignedNumber? format true rest
  | '+' :: rest => unsignedNumber? format false rest
  | text => unsignedNumber? format false text

end MethodFlow.Decimal
