import MethodFlow.Text.Unprinted

/-! Text between double quotes, as string constants and error messages are shown. The quote, the
backslash and the usual controls have two-character escapes; every other character without a shown
form is written as its code point in hexadecimal digits between braces. -/

namespace MethodFlow.Text

/-- Lower-case hexadecimal digits, without leading zeros. -/
def hexDigits (value : Nat) : List Char := Nat.toDigits 16 value

/-- One character as it stands between quotes. -/
def quotedChar (c : Char) : List Char :=
  match c with
  | '\x00' => ['\\', '0']
  | '\t' => ['\\', 't']
  | '\n' => ['\\', 'n']
  | '\r' => ['\\', 'r']
  | '"' => ['\\', '"']
  | '\\' => ['\\', '\\']
  | _ => if isUnprinted c then ['\\', 'u', '\x7b'] ++ hexDigits c.toNat ++ ['\x7d'] else [c]

/-- The text between double quotes. -/
def quoted (text : List Char) : String :=
  String.ofList ('"' :: text.flatMap quotedChar ++ ['"'])

end MethodFlow.Text
