/-!
# Forms

A form is a node of a configuration and of the host code made from it: an atom,
a quoted form, a list or a vector. Keywords are plain symbols whose name starts
with a colon. The empty list and the symbol `nil` are different forms; where a
rule needs an empty or false value it produces `nil`.

A list is read as a call of its head symbol. Vectors and quoted forms are data.
-/

namespace Rulebook

/-- A node of a configuration or of host code. -/
inductive Form where
  | symbol (name : String)
  | text (content : String)
  | int (value : Int64)
  /-- `'x` -/
  | quote (inner : Form)
  /-- `#'x` -/
  | function (inner : Form)
  | list (items : List Form)
  | vector (items : List Form)
deriving Repr, Inhabited

namespace Form

mutual

/-- Equality of forms is decided node by node. -/
def decEq (a b : Form) : Decidable (a = b) :=
  match a, b with
  | .symbol x, .symbol y => decidable_of_iff (x = y) (by simp)
  | .text x, .text y => decidable_of_iff (x = y) (by simp)
  | .int x, .int y => decidable_of_iff (x = y) (by simp)
  | .quote x, .quote y =>
    haveI := decEq x y
    decidable_of_iff (x = y) (by simp)
  | .function x, .function y =>
    haveI := decEq x y
    decidable_of_iff (x = y) (by simp)
  | .list xs, .list ys =>
    haveI := decEqAll xs ys
    decidable_of_iff (xs = ys) (by simp)
  | .vector xs, .vector ys =>
    haveI := decEqAll xs ys
    decidable_of_iff (xs = ys) (by simp)
  | .symbol _, .text _ | .symbol _, .int _ | .symbol _, .quote _
  | .symbol _, .function _ | .symbol _, .list _ | .symbol _, .vector _
  | .text _, .symbol _ | .text _, .int _ | .text _, .quote _
  | .text _, .function _ | .text _, .list _ | .text _, .vector _
  | .int _, .symbol _ | .int _, .text _ | .int _, .quote _
  | .int _, .function _ | .int _, .list _ | .int _, .vector _
  | .quote _, .symbol _ | .quote _, .text _ | .quote _, .int _
  | .quote _, .function _ | .quote _, .list _ | .quote _, .vector _
  | .function _, .symbol _ | .function _, .text _ | .function _, .int _
  | .function _, .quote _ | .function _, .list _ | .function _, .vector _
  | .list _, .symbol _ | .list _, .text _ | .list _, .int _
  | .list _, .quote _ | .list _, .function _ | .list _, .vector _
  | .vector _, .symbol _ | .vector _, .text _ | .vector _, .int _
  | .vector _, .quote _ | .vector _, .function _ | .vector _, .list _ =>
    isFalse (by intro h; cases h)

/-- Equality of lists of forms, item by item. -/
def decEqAll (xs ys : List Form) : Decidable (xs = ys) :=
  match xs, ys with
  | [], [] => isTrue rfl
  | x :: xs, y :: ys =>
    haveI := decEq x y
    haveI := decEqAll xs ys
    decidable_of_iff (x = y ∧ xs = ys) (by simp)
  | [], _ :: _ | _ :: _, [] => isFalse (by intro h; cases h)

end

instance : DecidableEq Form := decEq

/-- The symbol `nil`, the host's false and empty value. -/
def nil : Form := .symbol "nil"

/-- The symbol `t`, the host's true value. -/
def t : Form := .symbol "t"

/-- The call `(head args...)`. -/
def call (head : String) (args : List Form) : Form := .list (.symbol head :: args)

/-- The name of a symbol. -/
def symbol? : Form → Option String
  | .symbol name => some name
  | _ => none

/-- The head symbol and the arguments of a list, read as a call. -/
def call? : Form → Option (String × List Form)
  | .list (.symbol head :: args) => some (head, args)
  | _ => none

/-- The head symbol of a list. -/
def head? (form : Form) : Option String := form.call?.map Prod.fst

/-- Whether the form is the symbol `nil`. -/
def isNil (form : Form) : Bool := form == nil

/-- One form that evaluates `forms` in order: none becomes `nil` and a single
one stands for itself. -/
def sequence : List Form → Form
  | [] => nil
  | [form] => form
  | forms => call "progn" forms

/-- The forms that a form evaluates in order, ready to be spliced into a larger
body. -/
def statements (form : Form) : List Form :=
  match form.call? with
  | some ("progn", forms) => forms
  | _ => if form.isNil then [] else [form]

/-- The elements of a list, or the form alone. Scope rules take one target or a
list of them. -/
def elements : Form → List Form
  | .list items => items
  | form => [form]

mutual

/-- Whether some list outside quotes and vectors has `head` as its head
symbol. -/
def invokes (head : String) : Form → Bool
  | .list items => (Form.list items).head? == some head || anyInvokes head items
  | .function inner => inner.invokes head
  | _ => false

/-- Whether one of several forms has a list headed by `head`. -/
def anyInvokes (head : String) : List Form → Bool
  | [] => false
  | form :: forms => form.invokes head || anyInvokes head forms

end

end Form

end Rulebook
