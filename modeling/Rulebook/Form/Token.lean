import Rulebook.Form.Basic
import Rulebook.Text.Blank

/-!
# Tokens

A source text is cut into brackets, sigils, strings and atoms. Blanks and
comments, from a semicolon to the end of its line, only separate. An atom is a
maximal run of characters that are neither blank nor one of `( ) [ ] ' " ;`, so
a `#` begins the sigil `#'` at the start of a token and is an ordinary
character anywhere else. Between them these begin with every character there
is, so the scanner has no way to fail.

The scanner is a fold over the characters. Its state is what it is in the
middle of and the tokens it has finished, so scanning a text in two parts is
scanning it whole. Each token is placed at the byte where it starts, counted in
UTF-8.
-/

namespace Rulebook.Form

/-- The two kinds of bracket. -/
inductive Bracket where
  | round
  | square
deriving Repr, DecidableEq, Inhabited

namespace Bracket

/-- The character that opens the bracket. -/
def opening : Bracket → Char
  | .round => '('
  | .square => '['

/-- The character that closes the bracket. -/
def closing : Bracket → Char
  | .round => ')'
  | .square => ']'

/-- What a pair of brackets makes of its items. -/
def enclose : Bracket → List Form → Form
  | .round, items => .list items
  | .square, items => .vector items

end Bracket

/-- The marks that quote the form after them. -/
inductive Sigil where
  | quote
  | function
deriving Repr, DecidableEq, Inhabited

/-- The quoted form. -/
def Sigil.mark : Sigil → Form → Form
  | .quote, form => .quote form
  | .function, form => .function form

/-- A token of a source text. -/
inductive Token where
  | opening (bracket : Bracket)
  | closing (bracket : Bracket)
  | sigil (sigil : Sigil)
  /-- A string, with its escapes still to be resolved. -/
  | text (raw : List Char)
  /-- The quote of a string that the text never closes. -/
  | unterminated
  | atom (chars : List Char)
deriving Repr, DecidableEq, Inhabited

/-- A token with the byte offset of its first character. -/
structure Placed where
  offset : Nat
  token : Token
deriving Repr, DecidableEq, Inhabited

/-- Whether `c` may stand in an atom. -/
def isAtomChar (c : Char) : Bool :=
  !(Text.isBlank c || c ∈ ['(', ')', '[', ']', '\'', '"', ';'])

/-- What the scanner is in the middle of. Characters are kept latest first. -/
inductive Pending where
  | nothing
  | comment
  /-- A `#` at the start of a token. -/
  | hash (start : Nat)
  | atom (start : Nat) (chars : List Char)
  /-- A string; after a backslash the next character is `escaped`. -/
  | text (start : Nat) (escaped : Bool) (chars : List Char)
deriving Repr, DecidableEq, Inhabited

/-- The scanner's state between two characters. -/
structure Scanner where
  offset : Nat
  pending : Pending
  tokens : Array Placed
deriving Repr, Inhabited

namespace Scanner

/-- The scanner before the first character. -/
def start : Scanner := ⟨0, .nothing, #[]⟩

/-- The scanner with one more finished token. -/
def emit (scanner : Scanner) (offset : Nat) (token : Token) : Scanner :=
  { scanner with tokens := scanner.tokens.push ⟨offset, token⟩ }

/-- Begins a token at `c`. -/
def begin (scanner : Scanner) (c : Char) : Scanner :=
  let here := scanner.offset
  let idle := { scanner with pending := .nothing }
  match c with
  | '(' => idle.emit here (.opening .round)
  | '[' => idle.emit here (.opening .square)
  | ')' => idle.emit here (.closing .round)
  | ']' => idle.emit here (.closing .square)
  | '\'' => idle.emit here (.sigil .quote)
  | '"' => { scanner with pending := .text here false [] }
  | ';' => { scanner with pending := .comment }
  | '#' => { scanner with pending := .hash here }
  | c => if Text.isBlank c then idle else { scanner with pending := .atom here [c] }

/-- Goes on with an atom whose characters so far are `chars`, latest first. -/
def extendAtom (scanner : Scanner) (first : Nat) (chars : List Char) (c : Char) : Scanner :=
  if isAtomChar c then { scanner with pending := .atom first (c :: chars) }
  else (scanner.emit first (.atom chars.reverse)).begin c

/-- What the scanner makes of `c`, its offset not yet moved. -/
def take (scanner : Scanner) (c : Char) : Scanner :=
  match scanner.pending with
  | .nothing => scanner.begin c
  | .comment => if c = '\n' then { scanner with pending := .nothing } else scanner
  | .hash first =>
    if c = '\'' then { scanner with pending := .nothing }.emit first (.sigil .function)
    else scanner.extendAtom first ['#'] c
  | .atom first chars => scanner.extendAtom first chars c
  | .text first true chars => { scanner with pending := .text first false (c :: chars) }
  | .text first false chars =>
    if c = '"' then { scanner with pending := .nothing }.emit first (.text chars.reverse)
    else { scanner with pending := .text first (c = '\\') (c :: chars) }

/-- Reads one character. -/
def step (scanner : Scanner) (c : Char) : Scanner :=
  let offset := scanner.offset + c.utf8Size
  { scanner.take c with offset }

/-- The tokens once the text has ended. -/
def finish (scanner : Scanner) : Array Placed :=
  match scanner.pending with
  | .nothing | .comment => scanner.tokens
  | .hash first => (scanner.emit first (.atom ['#'])).tokens
  | .atom first chars => (scanner.emit first (.atom chars.reverse)).tokens
  | .text first _ _ => (scanner.emit first .unterminated).tokens

end Scanner

/-- The tokens of a text. -/
def tokens (source : List Char) : List Placed :=
  (source.foldl Scanner.step Scanner.start).finish.toList

end Rulebook.Form
