namespace MethodFlow.Text

/-- Value of a digit character. -/
def digit? (c : Char) : Option Nat :=
  if '0' ≤ c ∧ c ≤ '9' then some (c.toNat - '0'.toNat) else none

/-- Value of a run of digits after digits worth `value`. -/
def digitsFrom? (value : Nat) : List Char → Option Nat
  | [] => some value
  | c :: rest =>
    match digit? c with
    | some d => digitsFrom? (10 * value + d) rest
    | none => none

/-- Value of one or more digits. -/
def digits? : List Char → Option Nat
  | [] => none
  | text => digitsFrom? 0 text

/-- A number of at most `limit`, with an optional plus sign. -/
def unsigned? (limit : Nat) (text : List Char) : Option Nat :=
  let value? :=
    match text with
    | '+' :: rest => digits? rest
    | _ => digits? text
  value?.filter (· ≤ limit)

/-- A number that fits in `bits + 1` bits of two's complement, with an optional sign. -/
def signed? (bits : Nat) (text : List Char) : Option Int :=
  let bound := Int.ofNat (1 <<< bits)
  let value? : Option Int :=
    match text with
    | '+' :: rest => (digits? rest).map Int.ofNat
    | '-' :: rest => (digits? rest).map fun value => -Int.ofNat value
    | _ => (digits? text).map Int.ofNat
  value?.filter fun value => -bound ≤ value && value < bound

end MethodFlow.Text
