import Rulebook.Rule.Entry
import Rulebook.Text.Order

/-!
# Registries

A registry holds at most one entry to a name. Entering a rule under a name that
is taken replaces the entry as a whole, and nothing is ever taken out. A rule
that is not accepted leaves the registry as it was.
-/

namespace Rulebook

/-- The rules that expansion knows. -/
structure Registry where
  /-- The entries, latest first, no two of one name. -/
  entries : List Entry
deriving Repr, DecidableEq

namespace Registry

/-- The registry without rules. -/
def empty : Registry := ⟨[]⟩

instance : Inhabited Registry := ⟨empty⟩

/-- The entry of a name. -/
def find? (registry : Registry) (id : String) : Option Entry :=
  registry.entries.find? (·.id == id)

/-- Whether a name has an entry. -/
def contains (registry : Registry) (id : String) : Bool := (registry.find? id).isSome

/-- The number of entries. -/
def size (registry : Registry) : Nat := registry.entries.length

/-- The names in ascending order of their code points. -/
def ids (registry : Registry) : List String :=
  (registry.entries.map (·.id)).mergeSort Text.precedes

/-- Puts an entry in place of any of the same name. -/
def insert (registry : Registry) (entry : Entry) : Registry :=
  ⟨entry :: registry.entries.filter (·.id != entry.id)⟩

/-- Enters a rule. -/
def define (registry : Registry) (rule : Rule) : Except Fault Registry := do
  return registry.insert (← Entry.ofRule rule)

/-- Enters rules in order up to the first that is not accepted. The rules
before it stay. -/
def install (registry : Registry) : List Rule → Except Fault Unit × Registry
  | [] => (.ok (), registry)
  | rule :: rules =>
    match registry.define rule with
    | .ok larger => larger.install rules
    | .error fault => (.error fault, registry)

/-- The registry with all of the rules, or the fault of the first that is not
accepted. -/
def extend (registry : Registry) (rules : List Rule) : Except Fault Registry :=
  match registry.install rules with
  | (.ok (), larger) => .ok larger
  | (.error fault, _) => .error fault

/-- The entry that a form invokes, and the arguments. -/
def invocation? (registry : Registry) (form : Form) : Option (Entry × List Form) := do
  let (id, args) ← form.call?
  return (← registry.find? id, args)

end Registry

end Rulebook
