/-!
# Integer literals

An integer literal is an optional sign and at least one ASCII digit, with a
value that fits a signed 64-bit word. Leading zeros and a plus sign are read
and not kept: `+007` is the integer 7. A run of digits beyond the word is no
integer.
-/

namespace Rulebook.Text

/-- The word that holds `value`, if one does. -/
def int64? (value : Int) : Option Int64 :=
  if Int64.minValue.toInt ≤ value ∧ value ≤ Int64.maxValue.toInt then some (Int64.ofInt value)
  else none

/-- The number that a non-empty run of ASCII digits spells. -/
def naturalLiteral? (digits : List Char) : Option Nat :=
  if !digits.isEmpty && digits.all Char.isDigit then some (Nat.ofDigitChars 10 digits 0)
  else none

/-- The integer that a text spells, if it is an integer literal. -/
def integerLiteral? : List Char → Option Int64
  | '-' :: digits => do int64? (-(← naturalLiteral? digits))
  | '+' :: digits => do int64? (← naturalLiteral? digits)
  | digits => do int64? (← naturalLiteral? digits)

/-- The shortest decimal spelling: no leading zeros, and a sign for negative
numbers only. -/
def integerChars (value : Int64) : List Char :=
  match value.toInt with
  | .ofNat n => Nat.toDigits 10 n
  | .negSucc n => '-' :: Nat.toDigits 10 (n + 1)

end Rulebook.Text
