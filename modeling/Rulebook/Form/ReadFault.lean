/-!
# Why a text cannot be read

Every fault but the last names the byte it is about, counted in UTF-8 from the
start of the text.

None of them is about a character that no token may begin with, and there is no
such character. A blank or a semicolon begins what separates tokens, each of
`( ) [ ] '` is a token, a `"` begins a string or is the quote of one that never
ends, and whatever is left begins an atom. So however much of a text has been
cut into tokens, the next one starts where the last one ended, and the cut
always comes to the end of the text or to a string without an end
(`Form.exists_lexes`).
-/

namespace Rulebook

/-- A reason for which a source text is refused. -/
inductive ReadFault where
  /-- A closing bracket where none is open, or one of the other kind is. -/
  | unexpectedClose (found : Char) (offset : Nat)
  /-- A bracket still open at the end; the innermost one is named. -/
  | unclosed (bracket : Char) (offset : Nat)
  /-- A string with no closing quote. -/
  | unterminatedText (offset : Nat)
  /-- A sigil with no form after it. -/
  | danglingSigil (offset : Nat)
  /-- An escape that strings do not have. -/
  | unknownEscape (escape : Char) (offset : Nat)
  /-- One level of nesting more than is allowed. -/
  | nestedTooDeep (limit : Nat) (offset : Nat)
  /-- A single form was asked for. -/
  | notOneForm (found : Nat)
deriving Repr, DecidableEq, Inhabited

/-- The wording of a fault. -/
def ReadFault.message : ReadFault → String
  | .unexpectedClose found offset => s!"unexpected '{found}' at offset {offset}"
  | .unclosed bracket offset => s!"unclosed '{bracket}' opened at offset {offset}"
  | .unterminatedText offset => s!"unterminated string starting at offset {offset}"
  | .danglingSigil offset => s!"dangling quote at offset {offset}"
  | .unknownEscape escape offset => s!"unknown string escape '\\{escape}' at offset {offset}"
  | .nestedTooDeep limit offset => s!"forms nested deeper than {limit} levels at offset {offset}"
  | .notOneForm found => s!"expected exactly one form, found {found}"

end Rulebook
