import Rulebook.Text.Blank
import Rulebook.Text.DecimalDigit

/-!
# Names of rules

A rule is found by the head symbol of a list, so its name has to read back as
one symbol. Blanks, brackets, quotes, the semicolon and the characters that
start other notations (`#`, the comma, the backtick) are kept out, and so are
names that look like a number in any script.
-/

namespace Rulebook.Rule

/-- Whether `c` may stand in a rule's name. -/
def isNameChar (c : Char) : Bool :=
  !(Text.isBlank c || c ∈ ['(', ')', '[', ']', '"', '\'', ';', '#', ',', '\x60'])

/-- Whether the characters are an optional sign and at least one digit. -/
def isNumeral (chars : List Char) : Bool :=
  let digits := match chars with
    | '-' :: rest => rest
    | '+' :: rest => rest
    | chars => chars
  !digits.isEmpty && digits.all Text.isDecimalDigit

/-- Whether a rule may have the name `name`. -/
def isName (name : String) : Bool :=
  let chars := name.toList
  !chars.isEmpty && chars.all isNameChar && !isNumeral chars

end Rulebook.Rule
