import Rulebook.Fault
import Rulebook.Form.Substitution

/-!
# Assignments

A variable is assigned outright or edited as a set. The target says which: a
plain name is set, and `(append NAME)`, `(prepend NAME)` and `(remove NAME)`
edit the list that the name holds. Adding what is already there changes
nothing, and the host's structural equality decides what is there.

How a variable is read and written differs from one kind of variable to the
next, so the two expressions are a parameter, a `Place`. The edits bind the
value and the old list to names of their own before comparing, and bind both at
once, so neither expression sees the other's name.
-/

namespace Rulebook

/-- How an assignment's new value comes from the old one. -/
inductive Edit where
  | set
  | append
  | prepend
  | remove
deriving Repr, DecidableEq, Inhabited

/-- The edit that is written `(name KEY)`. -/
def Edit.ofName? : String → Option Edit
  | "append" => some .append
  | "prepend" => some .prepend
  | "remove" => some .remove
  | _ => none

/-- An edit and the name of the variable it is made to. -/
structure Target where
  edit : Edit
  key : String
deriving Repr, DecidableEq, Inhabited

/-- The target that a form describes. -/
def Target.ofForm (form : Form) : Except Fault Target :=
  match form with
  | .symbol key => .ok ⟨.set, key⟩
  | .list [.symbol name, .symbol key] =>
    match Edit.ofName? name with
    | some edit => .ok ⟨edit, key⟩
    | none => .error (.unknownTarget form)
  | _ => .error (.unknownTarget form)

/-- How a kind of variable is read and written. -/
structure Place where
  /-- An expression for the current value of a name. -/
  read : Form → Form
  /-- An expression that stores the value of an expression under a name. -/
  write : Form → Form → Form

namespace Place

/-- What a place's templates put for a symbol: `$k` is the name and `$v` the
value. -/
def fill (key value : Form) (template : Form) : Form :=
  template.substitute fun
    | "$k" => key
    | "$v" => value
    | name => .symbol name

/-- The place whose expressions are given by templates. Reading has no value,
so there `$v` is `nil`. -/
def ofTemplates (reader writer : Form) : Place where
  read key := fill key Form.nil reader
  write key value := fill key value writer

/-- The name that the added value is bound to. -/
def valueName : Form := .symbol "setup--value"

/-- The name that the old list is bound to. -/
def oldName : Form := .symbol "setup--old"

/-- The old list if it has the value as a member, and `changed` otherwise. -/
def unlessMember (place : Place) (key value changed : Form) : Form :=
  .call "let"
    [.list [.list [valueName, value], .list [oldName, place.read key]],
     .call "if" [.call "member" [valueName, oldName], oldName, changed]]

/-- An expression for the value that an edit gives. -/
def edited (place : Place) (edit : Edit) (key value : Form) : Form :=
  match edit with
  | .set => value
  | .append =>
    place.unlessMember key value (.call "append" [oldName, .call "list" [valueName]])
  | .prepend => place.unlessMember key value (.call "cons" [valueName, oldName])
  | .remove => .call "remove" [value, place.read key]

/-- The expression that carries out an assignment. -/
def assign (place : Place) (target value : Form) : Except Fault Form := do
  let ⟨edit, key⟩ ← Target.ofForm target
  return place.write (.symbol key) (place.edited edit (.symbol key) value)

end Place

end Rulebook
