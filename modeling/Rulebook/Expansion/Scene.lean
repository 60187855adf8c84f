import Rulebook.Expansion.Run
import Rulebook.HostCode

/-!
# Scenes

A scene is what a rule sees of the run it is part of: the registry, the context
it is used in, and a way to expand a form one level further down, in this
context or another. From these come the means that the rule is handed. A scene
is never changed: another context makes another scene.
-/

namespace Rulebook

/-- The surroundings in which a form is expanded. -/
structure Scene where
  registry : Registry
  frame : Frame
  /-- Expands a form one level further down, in the context given. -/
  expandIn : Frame → Form → Run Form

namespace Scene

/-- What the context binds to a key. -/
def deduce (scene : Scene) (key : Key) : Run Form := Means.settled (scene.frame.deduce key)

/-- The code of an early exit that returns `value`. Producing one makes the
whole run guarded. -/
def exit (scene : Scene) (value : Form) : Run Form := do
  let token ← scene.deduce .quit
  Run.note Progress.guard
  return HostCode.throwTo token value

/-- Expands forms in order. -/
def expandAll (scene : Scene) (forms : List Form) : Run (List Form) :=
  forms.mapM (scene.expandIn scene.frame)

/-- Expands forms in order into one form. -/
def expandBody (scene : Scene) (forms : List Form) : Run Form := do
  return .sequence (← scene.expandAll forms)

/-- The same surroundings with another context. -/
def withFrame (scene : Scene) (frame : Frame) : Scene := { scene with frame }

/-- Expands a body in the scope of one target. -/
def expandFor (scene : Scene) (scope : Scope) (body : List Form) (target : Form) :
    Run (List Form) := do
  let bindings ← Means.settled (scope.bindings target)
  (scene.withFrame (scene.frame.bindAll bindings)).expandAll body

/-- Expands a body once for each target, one after the other, into one form. A
target is checked only when its turn comes. -/
def enter (scene : Scene) (scope : Scope) (targets : Form) (body : List Form) : Run Form := do
  return .sequence (← targets.elements.mapM (scene.expandFor scope body)).flatten

/-- What a rule can do in the scene. -/
def means (scene : Scene) : Means Run where
  registry := scene.registry
  deduce := scene.deduce
  exit := scene.exit
  expandAll := scene.expandAll
  enter := scene.enter

/-- Expands what lies inside a form that is itself settled: the items of a
list, unless the list is data, and a list under a function mark. -/
def descend (scene : Scene) (form : Form) : Run Form :=
  match form with
  | .list items =>
    if form.head? = some "quote" then pure form
    else do return .list (← scene.expandAll items)
  | .function (.list items) => do
    return .function (← scene.expandIn scene.frame (.list items))
  | form => pure form

end Scene

end Rulebook
