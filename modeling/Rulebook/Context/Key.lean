/-!
# Context keys

What a rule may ask of the place it is used in. The first four describe the
thing being configured; `quit` holds the tag to which an early exit is thrown.
-/

namespace Rulebook

/-- What a context can bind. -/
inductive Key where
  | feature
  | mode
  | map
  | hook
  | quit
deriving Repr, DecidableEq, Inhabited

/-- The key's name in messages and templates. -/
def Key.name : Key → String
  | .feature => "feature"
  | .mode => "mode"
  | .map => "map"
  | .hook => "hook"
  | .quit => "quit"

end Rulebook
