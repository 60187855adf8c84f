import Mathlib.Logic.Function.Basic
import Rulebook.Builtin.Emission

/-!
# What host code does

Assignments are host code, and what they are for is what the host does with
them. This is as much of the host as they use: variables, quoted data, parallel
`let` with lexical scope, conditionals, and the operations on lists. Everything
else that code may hold is up to a `World`, which says what a form of any other
kind comes to and what it does to the variables. So a value expression can be
any code at all.

Host data know one empty list, the symbol `nil`, which is false as well. A
quoted form is read as the host's reader would: `()` is `nil`, and `'x` is a
list of two.
-/

namespace Rulebook

namespace Evaluation

/-- A datum of the host, equal to another just when it is built alike. -/
inductive Value where
  | symbol (name : String)
  | text (content : String)
  | int (value : Int64)
  | cons (head tail : Value)
  /-- A vector, kept as the list of its items. -/
  | vector (items : Value)
deriving Repr, DecidableEq, Inhabited

namespace Value

/-- The empty list, which is false too. -/
def nil : Value := .symbol "nil"

/-- The list of several values. -/
def ofList (items : List Value) : Value := items.foldr cons nil

/-- The items of a list. -/
def toList? : Value → Option (List Value)
  | .cons head tail => (toList? tail).map (head :: ·)
  | value => if value = nil then some [] else none

@[simp] theorem toList?_ofList (items : List Value) : (ofList items).toList? = some items := by
  induction items with
  | nil => rfl
  | cons item items ih =>
    change (toList? (ofList items)).map (item :: ·) = _
    rw [ih]
    rfl

@[simp] theorem ofList_eq_nil_iff {items : List Value} : ofList items = nil ↔ items = [] := by
  cases items with
  | nil => exact iff_of_true rfl rfl
  | cons item items => exact iff_of_false nofun nofun

/-- Several lists one after the other. The last of them may be any value. -/
def append? : List Value → Option Value
  | [] => some nil
  | [last] => some last
  | first :: rest => do return (← first.toList?).foldr cons (← append? rest)

theorem ofList_append (front back : List Value) :
    ofList (front ++ back) = front.foldr cons (ofList back) :=
  List.foldr_append

theorem append?_ofList (front back : List Value) :
    append? [ofList front, ofList back] = some (ofList (front ++ back)) := by
  change (ofList front).toList?.bind (fun items => some (items.foldr cons (ofList back))) = _
  rw [toList?_ofList, ofList_append]
  rfl

end Value

/-- The values of the host's variables, where they have one. -/
abbrev Memory := String → Option Value

/-- Lexical variables, the innermost first. -/
abbrev Locals := List (String × Value)

/-- What the host makes of the code and the functions that are not described
here. -/
structure World where
  /-- The property of a symbol, `nil` if it has none of that name. -/
  property : String → String → Value
  /-- The outcome of calling a function, if it returns. -/
  invoke : Value → List Value → Memory → Option (Value × Memory)
  /-- The outcome of evaluating a form, if it returns. -/
  evaluate : Form → Locals → Memory → Option (Value × Memory)

end Evaluation

namespace Form

open Evaluation (Value)

mutual

/-- The datum that a quoted form stands for. -/
def datum : Form → Value
  | .symbol name => .symbol name
  | .text content => .text content
  | .int value => .int value
  | .quote inner => .ofList [.symbol "quote", inner.datum]
  | .function inner => .ofList [.symbol "function", inner.datum]
  | .list items => .ofList (data items)
  | .vector items => .vector (.ofList (data items))

def data : List Form → List Value
  | [] => []
  | form :: forms => form.datum :: data forms

end

end Form

namespace Evaluation

/-- Functions of the host that assignments call. -/
inductive Operation where
  | list
  | cons
  | append
  | member
  | remove
  | get
  | symbolValue
  | set
deriving Repr, DecidableEq, Inhabited

def Operation.ofName? : String → Option Operation
  | "list" => some .list
  | "cons" => some .cons
  | "append" => some .append
  | "member" => some .member
  | "remove" => some .remove
  | "get" => some .get
  | "symbol-value" => some .symbolValue
  | "set" => some .set
  | _ => none

/-- What an operation gives for arguments of the kinds it is used with here, and
the memory that it leaves. -/
def Operation.run? (world : World) (memory : Memory) :
    Operation → List Value → Option (Value × Memory)
  | .list, items => some (.ofList items, memory)
  | .cons, [head, tail] => some (.cons head tail, memory)
  | .append, lists => (Value.append? lists).map (·, memory)
  | .member, [value, among] =>
    among.toList?.map fun items => (.ofList (items.dropWhile (· ≠ value)), memory)
  | .remove, [value, among] =>
    among.toList?.map fun items => (.ofList (items.filter (· ≠ value)), memory)
  | .get, [.symbol name, .symbol property] => some (world.property name property, memory)
  | .symbolValue, [.symbol name] => (memory name).map (·, memory)
  | .set, [.symbol name, value] => some (value, Function.update memory name (some value))
  | _, _ => none

/-- The outcome of calling a function. -/
def World.call (world : World) (function : Value) (args : List Value) (memory : Memory) :
    Option (Value × Memory) :=
  let known := match function with
    | .symbol name => Operation.ofName? name
    | _ => none
  match known.bind (·.run? world memory args) with
  | some outcome => some outcome
  | none => world.invoke function args memory

/-- What the head of a call means: an operator that decides itself what it
evaluates, or a function. -/
inductive Operator where
  | bindVariables
  | branch
  | firstTrue
  | inOrder
  | setLocally
  | callValue
  | function (operation : Operation)
deriving Repr, DecidableEq, Inhabited

def Operator.ofName? : String → Option Operator
  | "let" => some .bindVariables
  | "if" => some .branch
  | "or" => some .firstTrue
  | "progn" => some .inOrder
  | "setq-local" => some .setLocally
  | "funcall" => some .callValue
  | name => (Operation.ofName? name).map .function

/-- The value of a variable: a lexical one hides the one in memory, and `nil`
stands for itself. -/
def lookup? (name : String) (locals : Locals) (memory : Memory) : Option Value :=
  if name = "nil" then some .nil else locals.lookup name <|> memory name

mutual

/-- The value of a form, and the memory that evaluating it leaves. There is none
if evaluation fails. -/
def eval (world : World) (form : Form) (locals : Locals) (memory : Memory) :
    Option (Value × Memory) :=
  match form with
  | .symbol name => (lookup? name locals memory).map (·, memory)
  | .quote inner => some (inner.datum, memory)
  | .function (.symbol name) => some (.symbol name, memory)
  | .list [] => some (.nil, memory)
  | .list (.symbol head :: args) =>
    match Operator.ofName? head with
    | some .bindVariables => evalLet world args locals memory
    | some .branch => evalIf world args locals memory
    | some .firstTrue => evalOr world args locals memory
    | some .inOrder => evalBody world args locals memory
    | some .setLocally => evalSetLocally world args locals memory
    | some .callValue =>
      match evalAll world args locals memory with
      | some (function :: values, memory) => world.call function values memory
      | _ => none
    | some (.function _) =>
      match evalAll world args locals memory with
      | some (values, memory) => world.call (.symbol head) values memory
      | none => none
    -- A macro decides itself what it evaluates, so the call is left as it is.
    | none => world.evaluate (.list (.symbol head :: args)) locals memory
  | .list (head :: args) => world.evaluate (.list (head :: args)) locals memory
  | .function inner => world.evaluate (.function inner) locals memory
  | form => some (form.datum, memory)

/-- The values of several forms, evaluated in order. -/
def evalAll (world : World) (forms : List Form) (locals : Locals) (memory : Memory) :
    Option (List Value × Memory) :=
  match forms with
  | [] => some ([], memory)
  | form :: forms => do
    let (value, memory) ← eval world form locals memory
    let (values, memory) ← evalAll world forms locals memory
    return (value :: values, memory)

/-- The value of the last of several forms, evaluated in order. -/
def evalBody (world : World) (forms : List Form) (locals : Locals) (memory : Memory) :
    Option (Value × Memory) :=
  match forms with
  | [] => some (.nil, memory)
  | [form] => eval world form locals memory
  | form :: forms => do
    let (_, memory) ← eval world form locals memory
    evalBody world forms locals memory

/-- The first value that is not `nil`. What stands behind it is not
evaluated. -/
def evalOr (world : World) (forms : List Form) (locals : Locals) (memory : Memory) :
    Option (Value × Memory) :=
  match forms with
  | [] => some (.nil, memory)
  | form :: forms => do
    let (value, memory) ← eval world form locals memory
    if value = .nil then evalOr world forms locals memory else return (value, memory)

/-- `(if test yes no...)` -/
def evalIf (world : World) (args : List Form) (locals : Locals) (memory : Memory) :
    Option (Value × Memory) :=
  match args with
  | test :: yes :: no => do
    let (value, memory) ← eval world test locals memory
    if value = .nil then evalBody world no locals memory else eval world yes locals memory
  | _ => none

/-- `(let (binding...) body...)`. No binding is in force before all of them have
been evaluated. -/
def evalLet (world : World) (args : List Form) (locals : Locals) (memory : Memory) :
    Option (Value × Memory) :=
  match args with
  | .list bindings :: body => do
    let (bound, memory) ← evalBindings world bindings locals memory
    -- Of two bindings of one name the later is the inner one.
    evalBody world body (bound.reverse ++ locals) memory
  | args => world.evaluate (.call "let" args) locals memory

/-- The names and values of bindings, evaluated in order. A binding is
`(name form)`, and a name alone is bound to `nil`. -/
def evalBindings (world : World) (bindings : List Form) (locals : Locals) (memory : Memory) :
    Option (Locals × Memory) :=
  match bindings with
  | [] => some ([], memory)
  | .list [.symbol name, form] :: bindings => do
    let (value, memory) ← eval world form locals memory
    let (bound, memory) ← evalBindings world bindings locals memory
    return ((name, value) :: bound, memory)
  | .symbol name :: bindings | .list [.symbol name] :: bindings => do
    let (bound, memory) ← evalBindings world bindings locals memory
    return ((name, .nil) :: bound, memory)
  | _ => none

/-- `(setq-local name form)`, which sets the variable of the buffer even where a
lexical one hides it. -/
def evalSetLocally (world : World) (args : List Form) (locals : Locals) (memory : Memory) :
    Option (Value × Memory) :=
  match args with
  | [.symbol name, form] => do
    let (value, memory) ← eval world form locals memory
    return (value, Function.update memory name (some value))
  | args => world.evaluate (.call "setq-local" args) locals memory

end

/-- A host whose options have no functions of their own, and in which whatever
is not described has no effect. -/
def World.bare : World where
  property _ _ := .nil
  invoke function args memory := match function, args with
    | .symbol "set-default", [.symbol name, value] =>
      some (value, Function.update memory name (some value))
    | _, _ => some (.nil, memory)
  evaluate _ _ memory := some (.nil, memory)

section Rules

variable {world : World} {locals : Locals} {before middle after : Memory}
  {form : Form} {forms : List Form} {value : Value} {values : List Value}

theorem evalAll_cons (hform : eval world form locals before = some (value, middle))
    (hforms : evalAll world forms locals middle = some (values, after)) :
    evalAll world (form :: forms) locals before = some (value :: values, after) := by
  rw [evalAll, hform]
  simp [hforms]

theorem evalAll_single (hform : eval world form locals before = some (value, after)) :
    evalAll world [form] locals before = some ([value], after) :=
  evalAll_cons hform rfl

theorem Operator.ofName?_of_operation {name : String} {operation : Operation}
    (hname : Operation.ofName? name = some operation) :
    Operator.ofName? name = some (.function operation) := by
  unfold Operation.ofName? at hname
  split at hname <;> cases hname <;> rfl

/-- A function is called with the values of its arguments. -/
theorem eval_operation {name : String} {operation : Operation}
    (hname : Operation.ofName? name = some operation)
    (hargs : evalAll world forms locals before = some (values, middle))
    (hrun : operation.run? world middle values = some (value, after)) :
    eval world (.call name forms) locals before = some (value, after) := by
  rw [Form.call, eval, Operator.ofName?_of_operation hname]
  simp [hargs, World.call, hname, hrun]

theorem eval_let {bindings : List Form} {bound : Locals}
    (hbindings : evalBindings world bindings locals before = some (bound, middle)) (body : Form) :
    eval world (.call "let" [.list bindings, body]) locals before =
      eval world body (bound.reverse ++ locals) middle := by
  change (evalBindings world bindings locals before).bind _ = _
  rw [hbindings]
  rfl

/-- In `(let ((a b) (b a)) (list a b))` neither binding sees the other. -/
example : (eval .bare
    (.call "let"
      [.list [.list [.symbol "a", .symbol "b"], .list [.symbol "b", .symbol "a"]],
       .call "list" [.symbol "a", .symbol "b"]])
    [("a", .int 1), ("b", .int 2)] fun _ => none).map Prod.fst =
      some (.ofList [.int 2, .int 1]) := by
  decide

theorem eval_if {test : Form} (htest : eval world test locals before = some (value, middle))
    (yes no : Form) :
    eval world (.call "if" [test, yes, no]) locals before =
      if value = .nil then eval world no locals middle else eval world yes locals middle := by
  change (eval world test locals before).bind _ = _
  rw [htest]
  rfl

theorem eval_sequence_pair {first second : Form} {ignored : Value}
    (hfirst : eval world first locals before = some (ignored, middle))
    (hsecond : eval world second locals middle = some (value, after)) :
    eval world (.sequence [first, second]) locals before = some (value, after) := by
  change (eval world first locals before).bind _ = _
  rw [hfirst]
  exact hsecond

/-- The function that a call computes is called like a named one. -/
theorem eval_funcall {function : Value}
    (hargs : evalAll world forms locals before = some (function :: values, after)) :
    eval world (.call "funcall" forms) locals before = world.call function values after := by
  change (match evalAll world forms locals before with
    | some (function :: values, memory) => world.call function values memory
    | _ => none) = _
  rw [hargs]

theorem eval_or_pair {first second : Form} {other : Value}
    (hfirst : eval world first locals before = some (value, middle))
    (hsecond : eval world second locals middle = some (other, after)) :
    eval world (.call "or" [first, second]) locals before =
      if value = .nil then some (other, after) else some (value, middle) := by
  change evalOr world [first, second] locals before = _
  simp only [evalOr, hfirst, hsecond, Option.bind_eq_bind, Option.bind_some]
  split
  · by_cases hother : other = .nil
    · rw [if_pos hother, hother]
    · rw [if_neg hother]
      rfl
  · rfl

end Rules

end Evaluation

end Rulebook
