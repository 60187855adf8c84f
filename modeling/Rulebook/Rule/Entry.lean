import Rulebook.Rule.Basic
import Rulebook.Rule.Name

/-!
# Entries

An entry is a rule that has been accepted. What was declared about its
arguments has become an intake, one of three ways to take them, and a way that
takes them in turns carries the proof that a turn is not empty. So no entry can
be asked to split its arguments into chunks of none.
-/

namespace Rulebook

/-- How an entry takes its arguments. -/
inductive Intake where
  /-- All at once, however many. -/
  | any
  /-- All at once, and just so many. -/
  | exactly (count : Nat)
  /-- So many at a time. -/
  | chunks (size : Nat) (positive : 0 < size)
deriving Repr, DecidableEq

namespace Intake

/-- The number of arguments to one turn, where it is fixed. -/
def arity : Intake → Option Nat
  | .any => none
  | .exactly count => some count
  | .chunks size _ => some size

/-- Whether the arguments are taken in turns. -/
def repeats : Intake → Bool
  | .chunks _ _ => true
  | _ => false

/-- The intake that takes `size` arguments at a time; none is no size. -/
def ofSize (rule : String) (size : Nat) : Except Fault Intake :=
  if h : 0 < size then .ok (.chunks size h) else .error (.noChunkSize rule)

/-- The intake that a rule's options declare. -/
def ofOptions (rule : String) (options : RuleOptions) : Except Fault Intake :=
  match options.repetition, options.arity with
  | .never, none => .ok .any
  | .never, some count => .ok (.exactly count)
  | .declared, none => .error (.noChunkSize rule)
  | .declared, some size => ofSize rule size
  | .every size, _ => ofSize rule size

end Intake

/-- A rule as it stands in a registry. -/
structure Entry where
  id : String
  action : Action
  intake : Intake
  deferred : Bool
  indent : Option Nat
  signature : Option String
  documentation : Option String
  shorthand : Option Shorthand
  debugShape : Option String
deriving Repr, DecidableEq

namespace Entry

/-- Accepts a rule: its name must be one that reads back, and then its options
must fit together. -/
def ofRule (rule : Rule) : Except Fault Entry := do
  unless Rule.isName rule.name do
    throw (.malformedName rule.name)
  let intake ← Intake.ofOptions rule.name rule.options
  return {
    id := rule.name
    action := rule.action
    intake
    deferred := rule.options.deferred
    indent := rule.options.indent
    signature := rule.options.signature
    documentation := rule.options.documentation
    shorthand := rule.options.shorthand
    debugShape := rule.options.debugShape }

/-- The number of arguments to one turn, where it is fixed. -/
def arity (entry : Entry) : Option Nat := entry.intake.arity

/-- Whether the arguments are taken in turns. -/
def repeats (entry : Entry) : Bool := entry.intake.repeats

/-- Names for the arguments of one turn. -/
def argumentNames (count : Nat) : String :=
  " ".intercalate ((List.range count).map fun i => s!"ARG{i + 1}")

/-- How the rule is called: as declared, or else as its intake tells. -/
def callPattern (entry : Entry) : String :=
  match entry.signature, entry.intake with
  | some signature, _ => signature
  | none, .any => "&rest ARGS"
  | none, .exactly count => argumentNames count
  | none, .chunks size _ => argumentNames size ++ " ..."

end Entry

end Rulebook
