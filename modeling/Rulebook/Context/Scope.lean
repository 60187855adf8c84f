import Rulebook.Context.Frame
import Rulebook.Text.Suffix

/-!
# Scopes

A scope names what is being configured and binds what follows from the name.
The levels go from wide to narrow: a feature implies its mode, a mode implies
its key map and its hook.
-/

namespace Rulebook

/-- What a scope names. -/
inductive Scope where
  | feature
  | mode
  | map
  | hook
deriving Repr, DecidableEq, Inhabited

namespace Scope

/-- The built-in rule that enters a scope of this level. -/
def ruleName : Scope → String
  | .feature => ":with-feature"
  | .mode => ":with-mode"
  | .map => ":with-map"
  | .hook => ":with-hook"

/-- The mode of a feature: its own name if that is a mode's, else with `-mode`
added. -/
def modeOfFeature (feature : String) : String :=
  Text.withEnding feature "-mode"

/-- The bindings that a mode implies. -/
def modeBindings (mode : String) : List (Key × Form) :=
  [(.mode, .symbol mode), (.map, .symbol (mode ++ "-map")), (.hook, .symbol (mode ++ "-hook"))]

/-- The bindings that a named thing implies at each level. -/
def symbolBindings (scope : Scope) (name : String) : List (Key × Form) :=
  match scope with
  | .feature => (.feature, .symbol name) :: modeBindings (modeOfFeature name)
  | .mode => modeBindings name
  | .map => [(.map, .symbol name)]
  | .hook => [(.hook, .symbol name)]

/-- The bindings that a target implies; only symbols are targets. -/
def bindings (scope : Scope) (target : Form) : Except Fault (List (Key × Form)) :=
  match target with
  | .symbol name => .ok (scope.symbolBindings name)
  | target => .error (Fault.expectedSymbol scope.ruleName target)

end Scope

end Rulebook
