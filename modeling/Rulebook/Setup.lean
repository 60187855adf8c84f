import Rulebook.Builtin.Catalogue
import Rulebook.Expander
import Rulebook.Form.Reader

/-!
# Setups

A setup `(setup NAME BODY...)` configures one thing. Its body is expanded in the
scope of the thing that the name tells, and if any rule produced an early exit,
the code is put behind one catch of the setup's own token.

Each setup has an expander of its own. Tokens are numbered, and the number of the
next one is the only thing that setups share, so it is the state of a `Session`: a
setup that gets as far as expanding uses up a number, whether or not it succeeds
and whether or not its code needs the token. Numbers are machine words. After the
largest one the count goes on from zero.
-/

namespace Rulebook

/-- Where the code will be used. -/
structure Host where
  /-- What every setup may take for granted. -/
  frame : Frame := Frame.empty
  /-- Whether the code will be evaluated with lexical scoping, which its
  closures need. -/
  lexical : Bool := true
deriving Repr, DecidableEq, Inhabited

/-- How setups are expanded. -/
structure SetupOptions where
  limits : Limits := {}
  /-- The rule put around the body of a setup that has a target. -/
  rootRule : Option String := some ":with-feature"
  tracing : Bool := false
deriving Repr, DecidableEq, Inhabited

/-- What becomes of a setup. -/
structure Outcome where
  form : Form
  /-- The thing that was configured. -/
  target : Option Form
  /-- The tag of the setup's early exits. -/
  token : Form
  progress : Progress
deriving Repr, DecidableEq, Inhabited

/-- A computation that hands out tokens. -/
abbrev Session (α : Type) := ExceptT Fault (StateM UInt64) α

namespace Session

/-- Carries out a session whose first token has the number given. -/
def perform {α : Type} (session : Session α) (next : UInt64) : Except Fault α × UInt64 :=
  (ExceptT.run session).run next

/-- The number of the next token, which is thereby used up. -/
def nextNumber : Session UInt64 := modifyGet fun n => (n, n + 1)

end Session

namespace Setup

/-- The token with a number. -/
def token (number : UInt64) : Form := .symbol ("setup-quit-" ++ toString number)

/-- The target that a name tells. A name that is a list is an invocation, and
its rule may say which of the arguments is the target. -/
def target? (registry : Registry) (name : Form) : Option Form :=
  match name with
  | .list _ => do
    let (entry, args) ← registry.invocation? name
    (← entry.shorthand).target args
  | name => some name

/-- The forms of a setup, a name that is an invocation being the first. -/
def wholeBody (name : Form) (body : List Form) : List Form :=
  match name with
  | .list _ => name :: body
  | _ => body

/-- The forms that are expanded: the body, in the scope of the target if there
is one and the root rule is known. -/
def rooted (registry : Registry) (rootRule : Option String) (name : Form) (body : List Form) :
    List Form :=
  let forms := wholeBody name body
  match target? registry name, rootRule with
  | some target, some root =>
    if registry.contains root then [.call root (target :: forms)] else forms
  | _, _ => forms

/-- The code of a setup from its expanded forms. -/
def assemble (token : Form) (guarded : Bool) (forms : List Form) : Form :=
  if guarded then HostCode.catchFor token (forms.flatMap Form.statements)
  else .sequence forms

/-- Expands a setup. -/
def run (registry : Registry) (host : Host) (options : SetupOptions) (name : Form)
    (body : List Form) : Session Outcome := do
  unless host.lexical do
    throw .dynamicScoping
  let token := token (← Session.nextNumber)
  let expander : Expander :=
    { settings := ⟨registry, options.limits, options.tracing⟩
      frame := host.frame.bind .quit token }
  let expanded := expander.means.expandAll (rooted registry options.rootRule name body)
  match expanded.perform expander with
  | (.error fault, _) => throw fault
  | (.ok forms, after) =>
    return {
      form := assemble token after.progress.guarded forms
      target := target? registry name
      token
      progress := after.progress }

/-- Expands a top-level form if it is a setup, and leaves any other as it is. -/
def expandTopLevel (registry : Registry) (host : Host) (options : SetupOptions) (form : Form) :
    Session Form :=
  match form.call? with
  | some ("setup", []) => throw (.argumentCount "setup" 1 0)
  | some ("setup", name :: body) => do
    return (← run registry host options name body).form
  | _ => pure form

/-- Reads a text and expands the setups in it. The first fault ends it. -/
def runSource (registry : Registry) (host : Host) (options : SetupOptions) (source : String) :
    Session (List Form) :=
  match Form.read source with
  | .error cause => throw (.unreadable cause)
  | .ok forms => forms.mapM (expandTopLevel registry host options)

end Setup

end Rulebook
