/-!
# Name endings

Names of modes and hooks are told by how they end.
-/

namespace Rulebook.Text

/-- Whether `name` ends in `ending`. -/
def endsIn (name ending : String) : Bool := ending.toList.isSuffixOf name.toList

/-- The name with `ending` added, unless it already ends so. -/
def withEnding (name ending : String) : String :=
  if endsIn name ending then name else name ++ ending

end Rulebook.Text
