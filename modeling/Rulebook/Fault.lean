import Rulebook.Context.Key
import Rulebook.Form.Printer
import Rulebook.Form.ReadFault
import Rulebook.Text.Quoted

/-!
# Why a configuration is refused

Every fault is found while expanding and none is left to the host. An early
exit is no fault: it is part of the code that is produced.
-/

namespace Rulebook

/-- A reason for which a rule or a configuration is refused. -/
inductive Fault where
  /-- The arguments of a repeating rule do not split into whole chunks. -/
  | raggedArguments (rule : String) (size got : Nat)
  /-- An assignment's target is neither a name nor an edit of one. -/
  | unknownTarget (target : Form)
  /-- No enclosing scope binds the key. -/
  | notDeducible (key : Key)
  /-- A rule's name would not read back as one symbol. -/
  | malformedName (name : String)
  /-- A rule repeats with no positive number of arguments to each turn. -/
  | noChunkSize (rule : String)
  /-- A rule that takes a fixed number of arguments got another. -/
  | argumentCount (rule : String) (expected got : Nat)
  /-- An argument is not of the kind that the rule takes. -/
  | badArgument (rule reason : String)
  /-- Expansion went more levels down than it may. -/
  | nestedTooDeep (limit : Nat)
  /-- One place was replaced more often than it may be. -/
  | replacedTooOften (rule : String) (limit : Nat)
  /-- The host would evaluate the code with dynamic scoping. -/
  | dynamicScoping
  /-- The source text cannot be read. -/
  | unreadable (cause : ReadFault)
  /-- A built-in rule was given fewer arguments than it uses. -/
  | missingArgument (index got : Nat)
deriving Repr, DecidableEq, Inhabited

/-- The wording of a fault. -/
def Fault.message : Fault → String
  | .raggedArguments rule size got =>
    s!"illegal arguments for {rule}: expected a multiple of {size}, got {got}"
  | .unknownTarget target => s!"invalid option {target}"
  | .notDeducible key => "cannot deduce " ++ key.name ++ " from context"
  | .malformedName name => "invalid rule name " ++ Text.quoted name
  | .noChunkSize rule => s!"rule {rule} is repeatable but declares no arity"
  | .argumentCount rule expected got =>
    s!"wrong number of arguments for {rule}: expected {expected}, got {got}"
  | .badArgument rule reason => s!"invalid argument for {rule}: {reason}"
  | .nestedTooDeep limit => s!"expansion nested deeper than {limit} levels"
  | .replacedTooOften rule limit =>
    s!"rule {rule} rewrote the same form more than {limit} times"
  | .dynamicScoping => "setup forms require lexical scoping in the host"
  | .unreadable cause => cause.message
  | .missingArgument index got => s!"no argument at position {index}, only {got} given"

/-- The fault of a rule that wanted a symbol. -/
def Fault.expectedSymbol (rule : String) (got : Form) : Fault :=
  .badArgument rule s!"expected a symbol, got {got}"

end Rulebook
