import Rulebook.Rule.Action

/-!
# Rules

A rule is a name, an action and what is declared about its arguments. The
declarations are free at this point: whether they fit together is settled when
the rule is entered into a registry.
-/

namespace Rulebook

/-- Whether a rule takes its arguments in turns, and how many to a turn. -/
inductive Repetition where
  | never
  /-- As many to a turn as the declared arity. -/
  | declared
  | every (size : Nat)
deriving Repr, DecidableEq, Inhabited

/-- Which argument of a rule names the target of the setup that the rule
heads. -/
inductive Shorthand where
  | first
  | second
  | last
  | never
deriving Repr, DecidableEq, Inhabited

/-- The target among the arguments. -/
def Shorthand.target (shorthand : Shorthand) (args : List Form) : Option Form :=
  match shorthand with
  | .first => args.head?
  | .second => args[1]?
  | .last => args.getLast?
  | .never => none

/-- What is declared about a rule. -/
structure RuleOptions where
  /-- The number of arguments that the action takes. -/
  arity : Option Nat := none
  /-- The number of leading arguments that an editor indents apart. -/
  indent : Option Nat := none
  /-- Whether the code waits until the context's feature is loaded. -/
  deferred : Bool := false
  repetition : Repetition := .never
  signature : Option String := none
  documentation : Option String := none
  shorthand : Option Shorthand := none
  /-- The shape of the arguments as a debugger takes it. -/
  debugShape : Option String := none
deriving Repr, DecidableEq, Inhabited

/-- A rule that can be entered into a registry. -/
structure Rule where
  name : String
  action : Action
  options : RuleOptions := {}
deriving Repr, DecidableEq, Inhabited

end Rulebook
