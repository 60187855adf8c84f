import Rulebook.Expansion.Expand

/-!
# Expanders

An expander serves requests one after the other. While it expands a form it keeps
track of where it is: it goes a level down before it looks at the form and comes
up again after it, and a scope makes a context of its own active for its body and
then the context before. Work that fails stops where it stands, and nothing it did
to the expander is undone for it. So whoever goes down a level or changes the
context takes the fault in, puts things back and only then fails in turn.

Rules act on the expander through the means they are handed and cannot reach its
level or its context in any other way. What is never put back is the progress: the
expander keeps that of all requests together, the failed ones included.

Expansion recurs on fuel, since the level at which it has to stop is part of the
state. Fuel that covers the levels left is never missed.
-/

namespace Rulebook

/-- Settings, where the expander is and what has happened so far. -/
structure Expander where
  settings : Settings
  /-- The active context. -/
  frame : Frame := Frame.empty
  /-- The levels gone down. -/
  depth : Nat := 0
  progress : Progress := {}
deriving Repr, DecidableEq, Inhabited

namespace Expander

/-- Goes one level down. -/
def goDown (expander : Expander) : Expander :=
  { expander with
    depth := expander.depth + 1
    progress := expander.progress.reach (expander.depth + 1) }

/-- Comes one level up. -/
def comeUp (expander : Expander) : Expander := { expander with depth := expander.depth - 1 }

/-- Notes that rule `id` made a replacement. -/
def record (expander : Expander) (id : String) : Expander :=
  { expander with
    progress := expander.progress.record expander.settings.tracing id expander.depth }

/-- Notes that an early exit was produced. -/
def guard (expander : Expander) : Expander :=
  { expander with progress := expander.progress.guard }

end Expander

/-- Work that an expander does. It may end in a fault, and what it did to the
expander stays done either way. -/
abbrev Work (α : Type) := ExceptT Fault (StateM Expander) α

namespace Work

variable {α : Type}

/-- Has an expander do work. -/
def perform (work : Work α) (expander : Expander) : Except Fault α × Expander :=
  (ExceptT.run work).run expander

/-- Does work and tells how it ended, without failing. -/
def attempt (work : Work α) : Work (Except Fault α) :=
  tryCatch (Except.ok <$> work) fun fault => pure (.error fault)

/-- Does work with another context active, and then, however the work ended, makes
the context before the active one again. -/
def withFrame (frame : Frame) (work : Work α) : Work α := do
  let outer := (← get).frame
  modify fun expander => { expander with frame }
  let result ← attempt work
  modify fun expander => { expander with frame := outer }
  Means.settled result

/-- What the active context binds to a key. -/
def deduce (key : Key) : Work Form := do
  Means.settled ((← get).frame.deduce key)

/-- The code of an early exit that returns `value`. -/
def exit (value : Form) : Work Form := do
  let token ← deduce .quit
  modify Expander.guard
  return HostCode.throwTo token value

/-- Expands a body in the scope of one target. -/
def expandFor (expand : Form → Work Form) (scope : Scope) (body : List Form) (target : Form) :
    Work (List Form) := do
  let bindings ← Means.settled (scope.bindings target)
  let frame := (← get).frame.bindAll bindings
  withFrame frame (body.mapM expand)

/-- What a rule can do, if forms are expanded as given. -/
def means (registry : Registry) (expand : Form → Work Form) : Means Work where
  registry
  deduce
  exit
  expandAll forms := forms.mapM expand
  enter scope targets body := do
    return .sequence (← targets.elements.mapM (expandFor expand scope body)).flatten

/-- Replaces a form while it invokes a rule, `left` times at the most. -/
def settle (means : Means Work) (left : Nat) (form : Form) : Work Form :=
  match means.registry.invocation? form with
  | none => pure form
  | some (entry, args) =>
    match left with
    | 0 => do throw (.replacedTooOften entry.id (← get).settings.limits.replacements)
    | left + 1 => do
      let replacement ← entry.apply means args
      modify (·.record entry.id)
      settle means left replacement

/-- Expands what lies inside a form that is itself settled. -/
def descend (expand : Form → Work Form) (form : Form) : Work Form :=
  match form with
  | .list items =>
    if form.head? = some "quote" then pure form
    else do return .list (← items.mapM expand)
  | .function (.list items) => do return .function (← expand (.list items))
  | form => pure form

/-- Expands a form one level down from where the expander is. -/
def expand : (fuel : Nat) → Form → Work Form
  | 0, _ => do throw (.nestedTooDeep (← get).settings.limits.depth)
  | fuel + 1, form => do
    let { settings, depth, .. } ← get
    if settings.limits.depth ≤ depth then throw (.nestedTooDeep settings.limits.depth)
    else
      modify Expander.goDown
      let result ← attempt do
        let settled ← settle (means settings.registry (expand fuel)) settings.limits.replacements
          form
        descend (expand fuel) settled
      modify Expander.comeUp
      Means.settled result

end Work

namespace Expander

/-- The fuel that covers all levels. -/
def fuel (expander : Expander) : Nat := expander.settings.limits.depth

/-- What a rule can do when it is applied. -/
def means (expander : Expander) : Means Work :=
  Work.means expander.settings.registry (Work.expand expander.fuel)

end Expander

/-- What an expander can be asked for. -/
inductive Request where
  | expand (form : Form)
  | expandAll (forms : List Form)
  /-- Expands forms into one. -/
  | expandBody (forms : List Form)
  /-- Expands a body once for each target, in its scope. -/
  | enter (scope : Scope) (targets : Form) (body : List Form)
  | deduce (key : Key)
  | exit (value : Form)
  /-- Applies the rule of a name to arguments. -/
  | apply (id : String) (args : List Form)
  /-- Serves requests in another context. -/
  | within (frame : Frame) (requests : List Request)

/-- What a request is answered with. -/
inductive Reply where
  | form (form : Form)
  | forms (forms : List Form)
  /-- There is no rule of that name. -/
  | noRule
  | replies (each : List (Except Fault Reply))

mutual

/-- Serves a request. Requests to be served in another context are all served,
whatever becomes of each, and then the context before is the active one again. -/
def Request.serve (expander : Expander) : Request → Except Fault Reply × Expander
  | .expand form => (Reply.form <$> Work.expand expander.fuel form).perform expander
  | .expandAll forms => (Reply.forms <$> expander.means.expandAll forms).perform expander
  | .expandBody forms => (Reply.form <$> expander.means.expandBody forms).perform expander
  | .enter scope targets body =>
    (Reply.form <$> expander.means.enter scope targets body).perform expander
  | .deduce key => (Reply.form <$> expander.means.deduce key).perform expander
  | .exit value => (Reply.form <$> expander.means.exit value).perform expander
  | .apply id args =>
    match expander.settings.registry.find? id with
    | some entry => (Reply.form <$> entry.apply expander.means args).perform expander
    | none => (.ok .noRule, expander)
  | .within frame requests =>
    let (replies, inner) := Request.serveAll { expander with frame } requests
    (.ok (.replies replies), { inner with frame := expander.frame })

/-- Serves requests in order, also after failures. -/
def Request.serveAll (expander : Expander) : List Request → List (Except Fault Reply) × Expander
  | [] => ([], expander)
  | request :: requests =>
    let (reply, between) := request.serve expander
    let (replies, after) := Request.serveAll between requests
    (reply :: replies, after)

end

end Rulebook
