import Rulebook.Text.Combining
import Rulebook.Text.Printable

/-!
# Quoted text in messages

Messages and descriptions show a text between double quotes, in a way that
lets every character be told apart: the quote, the backslash and the common
controls by a short escape, other characters that would not show by their code
point. This is the quoting of messages only; the strings of a form have an
escape set of their own.
-/

namespace Rulebook.Text

/-- Lowercase hexadecimal digits without leading zeros. -/
def hexDigits (n : Nat) : String := String.ofList (Nat.toDigits 16 n)

/-- How one character stands inside a quoted text. -/
def quotedChar (c : Char) : String :=
  if c == '"' then "\\\""
  else if c == '\\' then "\\\\"
  else if c == '\n' then "\\n"
  else if c == '\r' then "\\r"
  else if c == '\t' then "\\t"
  else if c == '\x00' then "\\0"
  else if isCombining c || !isPrintable c then "\\u\x7b" ++ hexDigits c.toNat ++ "\x7d"
  else c.toString

/-- The text between double quotes, with what would not show escaped. -/
def quoted (text : String) : String :=
  "\"" ++ String.join (text.toList.map quotedChar) ++ "\""

end Rulebook.Text
