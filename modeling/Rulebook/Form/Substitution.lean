import Rulebook.Form.Basic

/-!
# Substitution of symbols

A form with some of its symbols replaced, wherever they stand: in lists and
vectors and under quotes. What is put in is not looked at again, and strings
are never touched.
-/

namespace Rulebook.Form

mutual

/-- Replaces every symbol by the form that `image` gives for its name. -/
def substitute (image : String → Form) : Form → Form
  | .symbol name => image name
  | .text content => .text content
  | .int value => .int value
  | .quote inner => .quote (inner.substitute image)
  | .function inner => .function (inner.substitute image)
  | .list items => .list (substituteAll image items)
  | .vector items => .vector (substituteAll image items)

/-- Replaces the symbols of several forms. -/
def substituteAll (image : String → Form) : List Form → List Form
  | [] => []
  | form :: forms => form.substitute image :: substituteAll image forms

end

end Rulebook.Form
