import Rulebook.Text.CodeRange

/-!
# Blank characters

Blanks separate the tokens of a source text and may not occur in a rule's name.
They are the characters with Unicode's White_Space property, twenty-five in
all, so a no-break space or an ideographic space separates as well as a plain
one.
-/

namespace Rulebook.Text

/-- The characters with the White_Space property. -/
def blankRanges : CodeRanges :=
  [(0x0009, 0x000D), (0x0020, 0x0020), (0x0085, 0x0085), (0x00A0, 0x00A0),
   (0x1680, 0x1680), (0x2000, 0x200A), (0x2028, 0x2029), (0x202F, 0x202F),
   (0x205F, 0x205F), (0x3000, 0x3000)]

/-- Whether `c` separates tokens. -/
def isBlank (c : Char) : Bool := blankRanges.contains c

example : blankRanges.count = 25 ∧ blankRanges.ascending = true := by decide

example : isBlank ' ' ∧ isBlank '\n' ∧ isBlank '\u3000' ∧ ¬ isBlank '\u200b' := by decide

end Rulebook.Text
