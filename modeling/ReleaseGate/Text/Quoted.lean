import ReleaseGate.Text.Unprintable
import ReleaseGate.Text.Hexadecimal

/-!
# Quoted texts for logs

In a log line a text stands between double quotes. Quotes, backslashes and the common controls have
escapes of one letter; every other character that does not show is written as its code point.
-/

namespace ReleaseGate

/-- A number in lower-case hexadecimal digits without leading zeros. -/
def hexText (n : Nat) : List Char := Nat.toDigits 16 n

/-- What stands for a character in a quoted text. -/
def logEscape (c : Char) : List Char :=
  match c with
  | '"' => ['\\', '"']
  | '\\' => ['\\', '\\']
  | '\n' => ['\\', 'n']
  | '\r' => ['\\', 'r']
  | '\t' => ['\\', 't']
  | '\x00' => ['\\', '0']
  | c => if isUnprintable c then '\\' :: 'u' :: '\x7b' :: hexText c.toNat ++ ['\x7d'] else [c]

/-- A text between double quotes, every character of it visible. -/
def logQuote (text : String) : String :=
  String.ofList ('"' :: text.toList.flatMap logEscape ++ ['"'])

/-- Quoted texts in square brackets. -/
def logList (texts : List String) : String :=
  "[" ++ ", ".intercalate (texts.map logQuote) ++ "]"

end ReleaseGate
