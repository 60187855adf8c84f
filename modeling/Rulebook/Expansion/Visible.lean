import Rulebook.Rule.Registry

/-!
# Where expansion looks

Expansion looks at a form, at the items of every list it looks at unless that
list is data, and at a list under a function mark. Quoted forms and vectors it
passes over. A form is settled when no list that expansion looks at invokes a
rule; such a form is left as it is, and `walk` counts the levels that going
over it takes.
-/

namespace Rulebook

namespace Form

/-- `Visible part form`: expansion of `form` looks at `part`. -/
inductive Visible : Form → Form → Prop
  | root (form : Form) : Visible form form
  | item {part form : Form} {items : List Form} (code : (Form.list items).head? ≠ some "quote")
      (mem : part ∈ items) (within : Visible (.list items) form) : Visible part form
  | marked {form : Form} {items : List Form} (within : Visible (.function (.list items)) form) :
      Visible (.list items) form

mutual

/-- The levels that expansion goes down in a form that it leaves as it is. -/
def walk : Form → Nat
  | .list items =>
    if (Form.list items).head? = some "quote" then 1 else walkOf items + 1
  | .function (.list items) => (Form.list items).walk + 1
  | _ => 1

/-- The levels gone down in the deepest of several forms. -/
def walkOf : List Form → Nat
  | [] => 0
  | form :: forms => max form.walk (walkOf forms)

end

end Form

/-- No list that expansion looks at has a rule's name as its head. -/
def Registry.Settled (registry : Registry) (form : Form) : Prop :=
  ∀ part, Form.Visible part form → registry.invocation? part = none

end Rulebook
