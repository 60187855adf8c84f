import Rulebook.Builtin.Emission
import Rulebook.Expansion.Template

/-!
# Applying rules

An entry is applied to arguments with the means it is handed. Its intake decides
how often its action is carried out and with which arguments, and arguments that
do not fit are refused before anything is done. A deferred entry first needs a
feature to wait for, and then puts all it made behind that feature's loading.
-/

namespace Rulebook

variable {m : Type → Type} [Monad m] [MonadExceptOf Fault m]

/-- Carries out an action on the arguments of one turn. -/
def Action.run (action : Action) (means : Means m) (args : List Form) : m Form :=
  match action with
  | .template pattern => Template.fill means args pattern
  | .enter rule scope =>
    match args with
    | [] => throw (.argumentCount rule 1 0)
    | targets :: forms => means.enter scope targets forms
  | .body => means.expandBody args
  | .exit => means.exit (args.head?.getD Form.nil)
  | .assign reader writer => do
    let place := Place.ofTemplates reader writer
    Means.settled (place.assign (← Means.argument args 0) (← Means.argument args 1))
  | .fail rule reason => throw (.badArgument rule reason)
  | .builtin rule => rule.emit means args

/-- The first `count` chunks of `size` items. -/
def chunksOf {α : Type} (size : Nat) : (count : Nat) → List α → List (List α)
  | 0, _ => []
  | count + 1, items => items.take size :: chunksOf size count (items.drop size)

/-- Gives arguments to an action as the intake says. -/
def Intake.feed (intake : Intake) (rule : String) (turn : List Form → m Form)
    (args : List Form) : m Form :=
  match intake with
  | .any => turn args
  | .exactly count =>
    if args.length = count then turn args
    else throw (.argumentCount rule count args.length)
  | .chunks size _ =>
    if args.length % size = 0 then do
      return .sequence (← (chunksOf size (args.length / size) args).mapM turn)
    else throw (.raggedArguments rule size args.length)

namespace Entry

/-- What the entry makes of its arguments, waiting apart. -/
def produce (entry : Entry) (means : Means m) (args : List Form) : m Form :=
  entry.intake.feed entry.id (entry.action.run means) args

/-- Applies the entry to arguments. -/
def apply (entry : Entry) (means : Means m) (args : List Form) : m Form :=
  if entry.deferred then do
    let feature ← means.deduce .feature
    let body ← entry.produce means args
    return HostCode.afterLoad (.quote feature) body.statements
  else entry.produce means args

end Entry

end Rulebook
