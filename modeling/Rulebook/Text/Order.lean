/-!
# The order of names

Names are listed in ascending order of their code points, a name before those
it begins.
-/

namespace Rulebook.Text

/-- Whether the first characters come before the second ones or are the
same. -/
def charsPrecede : List Char → List Char → Bool
  | [], _ => true
  | _ :: _, [] => false
  | a :: as, b :: bs => Nat.blt a.toNat b.toNat || (a == b && charsPrecede as bs)

/-- Whether `a` is listed before `b` or is the same name. -/
def precedes (a b : String) : Bool := charsPrecede a.toList b.toList

end Rulebook.Text
