import Rulebook.Context.Scope
import Rulebook.Rule.Registry

/-!
# What rules act through

A rule does not know what expands the forms it is given. It asks the context,
has forms expanded, enters scopes and produces early exits, and all of this goes
through the means it is handed. So a rule is written once for every kind of
computation that can fail.
-/

namespace Rulebook

/-- What a rule can do in the computation that it is part of. -/
structure Means (m : Type → Type) where
  registry : Registry
  /-- What the context binds to a key. -/
  deduce : Key → m Form
  /-- The code of an early exit that returns a value. -/
  exit : Form → m Form
  /-- Expands forms in order. -/
  expandAll : List Form → m (List Form)
  /-- Expands a body once for each target, in its scope, into one form. -/
  enter : Scope → (targets : Form) → (body : List Form) → m Form

namespace Means

variable {m : Type → Type} [Monad m]

/-- Expands forms in order into one form. -/
def expandBody (means : Means m) (forms : List Form) : m Form := do
  return .sequence (← means.expandAll forms)

variable [MonadExceptOf Fault m]

/-- A step whose outcome is already known. -/
def settled {α : Type} : Except Fault α → m α
  | .ok value => pure value
  | .error fault => throw fault

/-- The argument at a position. -/
def argument (args : List Form) (index : Nat) : m Form :=
  match args[index]? with
  | some arg => pure arg
  | none => throw (.missingArgument index args.length)

end Means

end Rulebook
