import Rulebook.Form.Reader

/-!
# Well-formed forms

Not every form has a text that reads back as itself: a symbol's name may hold a
blank or spell a number, and a form may be nested more deeply than is read. The
forms without either fault are the well-formed ones.
-/

namespace Rulebook.Form

/-- Whether a symbol with this name is read back from its text. -/
def isReadable (name : String) : Bool :=
  let chars := name.toList
  !chars.isEmpty && chars.all isAtomChar && (Text.integerLiteral? chars).isNone

mutual

/-- The levels of nesting: a list, a vector and a sigil add one each. -/
def nesting : Form → Nat
  | .quote inner => inner.nesting + 1
  | .function inner => inner.nesting + 1
  | .list items => nestingOf items + 1
  | .vector items => nestingOf items + 1
  | _ => 0

/-- The nesting of the most deeply nested of several forms. -/
def nestingOf : List Form → Nat
  | [] => 0
  | form :: forms => max form.nesting (nestingOf forms)

end

mutual

/-- The names of all symbols in a form, quoted ones included, from left to
right. -/
def symbols : Form → List String
  | .symbol name => [name]
  | .quote inner => inner.symbols
  | .function inner => inner.symbols
  | .list items => symbolsOf items
  | .vector items => symbolsOf items
  | _ => []

/-- The names of all symbols in several forms. -/
def symbolsOf : List Form → List String
  | [] => []
  | form :: forms => form.symbols ++ symbolsOf forms

end

/-- Whether the form is one that a text can be read as. -/
def WellFormed (form : Form) : Prop :=
  (∀ name ∈ form.symbols, isReadable name) ∧ form.nesting ≤ maxNesting

instance (form : Form) : Decidable form.WellFormed :=
  inferInstanceAs (Decidable (_ ∧ _))

theorem nesting_le_nestingOf {item : Form} {items : List Form} (mem : item ∈ items) :
    item.nesting ≤ nestingOf items := by
  induction items with
  | nil => cases mem
  | cons first rest ih =>
    rw [nestingOf]
    rcases List.mem_cons.mp mem with rfl | mem
    · exact Nat.le_max_left _ _
    · exact Nat.le_trans (ih mem) (Nat.le_max_right _ _)

theorem mem_symbolsOf {name : String} {items : List Form} :
    name ∈ symbolsOf items ↔ ∃ item ∈ items, name ∈ item.symbols := by
  induction items with
  | nil => simp [symbolsOf]
  | cons first rest ih => simp [symbolsOf, ih]

end Rulebook.Form
