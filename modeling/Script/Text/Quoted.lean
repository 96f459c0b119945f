/-
# Script.Text.Quoted -- a text between double quotes, with nothing invisible left

Tab, carriage return, line feed, backslash, double quote and the null character
have short escapes.  Any other character that is not printable is written as its
code point in hexadecimal, between braces after `\u`.
-/
import Script.Text.Printable

namespace Script.Text

set_option autoImplicit false

/-- A character as it stands between quotes. -/
def escape (c : Char) : List Char :=
  match c with
  | '\x00' => ['\\', '0']
  | '\t' => ['\\', 't']
  | '\r' => ['\\', 'r']
  | '\n' => ['\\', 'n']
  | '\\' => ['\\', '\\']
  | '"' => ['\\', '"']
  | c =>
      if isPrintable c then [c]
      else ['\\', 'u', '\x7b'] ++ Nat.toDigits 16 c.toNat ++ ['\x7d']

/-- A text between double quotes. -/
def quoted (text : String) : String :=
  String.ofList ('"' :: text.toList.flatMap escape ++ ['"'])

end Script.Text
