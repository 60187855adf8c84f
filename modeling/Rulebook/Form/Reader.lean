import Rulebook.Form.ReadFault
import Rulebook.Form.Token
import Rulebook.Text.Integer

/-!
# Reading forms

The tokens of a text are folded into forms. The state is a level being filled,
at the top or inside the innermost open bracket, together with the open
brackets around it, each with the level it interrupted. Sigils wait in their
level for the next complete form.

Nesting is bounded: a list, a vector and a sigil each add a level, and a text
that would need more than `maxNesting` of them is refused at the token that
asks for one more.
-/

namespace Rulebook.Form

/-- The deepest nesting that is read. -/
def maxNesting : Nat := 1024

/-- The form that an atom spells: an integer if it is an integer literal, a
symbol otherwise. -/
def ofAtom (chars : List Char) : Form :=
  match Text.integerLiteral? chars with
  | some value => .int value
  | none => .symbol (String.ofList chars)

/-- The character that a backslash and `c` stand for in a string. -/
def escape? : Char → Option Char
  | '"' => some '"'
  | '\\' => some '\\'
  | 'n' => some '\n'
  | 't' => some '\t'
  | _ => none

/-- Resolves the escapes of a string whose contents start at byte `offset`. A
lone backslash at the end, which no scanned string has, stands for itself. -/
def unescape (offset : Nat) : List Char → Except ReadFault (List Char)
  | [] => .ok []
  | ['\\'] => .ok ['\\']
  | '\\' :: c :: rest =>
    match escape? c with
    | some meant => (unescape (offset + 1 + c.utf8Size) rest).map (meant :: ·)
    | none => .error (.unknownEscape c offset)
  | c :: rest => (unescape (offset + c.utf8Size) rest).map (c :: ·)

/-- A level being filled. Items and sigils are kept latest first. -/
structure Level where
  /-- The nesting of the level's items, 0 at the top. -/
  depth : Nat
  items : List Form
  /-- The sigils waiting for a form, each with its offset. -/
  sigils : List (Nat × Sigil)
deriving Repr, Inhabited

namespace Level

/-- A level with nothing in it. -/
def empty (depth : Nat) : Level := ⟨depth, [], []⟩

/-- Adds a complete form, marked by the waiting sigils. -/
def push (level : Level) (form : Form) : Level :=
  { level with
    items := level.sigils.foldl (fun inner sigil => sigil.2.mark inner) form :: level.items
    sigils := [] }

/-- The depth of one more level inside this one, if it may be opened. -/
def nest (level : Level) (offset : Nat) : Except ReadFault Nat :=
  let depth := level.depth + level.sigils.length + 1
  if depth ≤ maxNesting then .ok depth else .error (.nestedTooDeep maxNesting offset)

/-- The level's forms in order, once no sigil waits. -/
def close (level : Level) : Except ReadFault (List Form) :=
  match level.sigils.getLast? with
  | some (offset, _) => .error (.danglingSigil offset)
  | none => .ok level.items.reverse

end Level

/-- An open bracket and the level that it interrupted. -/
structure OpenBracket where
  bracket : Bracket
  offset : Nat
  outer : Level
deriving Repr, Inhabited

/-- The reader's state between two tokens: the level being filled and the open
brackets around it, innermost first. -/
structure Reader where
  level : Level
  around : List OpenBracket
deriving Repr, Inhabited

namespace Reader

/-- The reader before the first token. -/
def start : Reader := ⟨Level.empty 0, []⟩

/-- Reads one token. -/
def step (reader : Reader) (placed : Placed) : Except ReadFault Reader :=
  match placed.token with
  | .opening bracket => do
    let depth ← reader.level.nest placed.offset
    return ⟨Level.empty depth, ⟨bracket, placed.offset, reader.level⟩ :: reader.around⟩
  | .closing bracket =>
    match reader.around with
    | opened :: around =>
      if opened.bracket = bracket then do
        let items ← reader.level.close
        return ⟨opened.outer.push (bracket.enclose items), around⟩
      else .error (.unexpectedClose bracket.closing placed.offset)
    | [] => .error (.unexpectedClose bracket.closing placed.offset)
  | .sigil sigil => do
    let _ ← reader.level.nest placed.offset
    let level := { reader.level with sigils := (placed.offset, sigil) :: reader.level.sigils }
    return { reader with level }
  | .text raw => do
    let content ← unescape (placed.offset + 1) raw
    return { reader with level := reader.level.push (.text (String.ofList content)) }
  | .unterminated => .error (.unterminatedText placed.offset)
  | .atom chars => .ok { reader with level := reader.level.push (ofAtom chars) }

/-- The forms once the text has ended. -/
def finish (reader : Reader) : Except ReadFault (List Form) :=
  match reader.around with
  | opened :: _ => .error (.unclosed opened.bracket.opening opened.offset)
  | [] => reader.level.close

end Reader

/-- Every form of a list of characters, in order. -/
def readChars (source : List Char) : Except ReadFault (List Form) := do
  let reader ← (tokens source).foldlM Reader.step Reader.start
  reader.finish

/-- Every form of a text, in order. -/
def read (source : String) : Except ReadFault (List Form) := readChars source.toList

/-- The form of a text that holds exactly one. -/
def readOne (source : String) : Except ReadFault Form := do
  match ← read source with
  | [form] => return form
  | forms => .error (.notOneForm forms.length)

end Rulebook.Form
