import Rulebook.Context.Scope

/-!
# What rules do

An action says how a rule makes its replacement from its arguments. Actions are
data: the same rule can be printed, compared and looked into. What an action
does when it is carried out is in `Rulebook.Expansion.Action`.
-/

namespace Rulebook

/-- The built-in rules, those that enter a scope apart. -/
inductive Builtin where
  | bindGlobally
  | bind
  | unbind
  | rebind
  | addHook
  | hookInto
  | addLocalHook
  | setOption
  | setLocally
  | installPackage
  | require
  | alsoLoad
  | whenLoaded
  | loadAfter
  | matchFile
  | needExecutable
  | ifPackage
  | ifFeature
  | ifHost
  | onlyIf
  | quit
  | advise
deriving Repr, DecidableEq, Inhabited

/-- How a rule makes its replacement. -/
inductive Action where
  /-- A form with its slots filled. -/
  | template (pattern : Form)
  /-- The arguments after the first, expanded once for each target that the
  first one names. Without a target the fault names `rule`. -/
  | enter (rule : String) (scope : Scope)
  /-- All arguments, expanded in order. -/
  | body
  /-- An early exit that returns the first argument. -/
  | exit
  /-- The assignment of the second argument to the target that the first one
  describes. -/
  | assign (reader writer : Form)
  /-- Always the fault that blames an argument of `rule`. -/
  | fail (rule reason : String)
  /-- A rule of the catalogue. -/
  | builtin (rule : Builtin)
deriving Repr, DecidableEq, Inhabited

end Rulebook
