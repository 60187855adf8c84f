import Rulebook.Expansion.Action
import Rulebook.Expansion.Scene

/-!
# Expansion

A form is expanded in two moves. While it invokes a rule it is replaced by what
the rule makes, and once it invokes none the forms inside it are expanded, from
left to right. The form itself is not looked at again. So what comes out invokes
a rule only where the head of a list was itself a list and became the name of
one.

A rule may bring itself back, so both moves are bounded: a form may be replaced
so many times in a row, and expansion may go so many levels down. The recursion
runs on these two bounds. `room` is the number of levels left below and `depth`
the number above; a run starts with all of the room at depth zero.
-/

namespace Rulebook

/-- How far expansion may go. -/
structure Limits where
  /-- The deepest level. -/
  depth : Nat := 256
  /-- The number of replacements of one form in a row. -/
  replacements : Nat := 1024
deriving Repr, DecidableEq, Inhabited

/-- What stays the same throughout a run. -/
structure Settings where
  registry : Registry
  limits : Limits := {}
  /-- Whether to keep a trace. -/
  tracing : Bool := false
deriving Repr, DecidableEq, Inhabited

namespace Settings

/-- Replaces a form at level `depth` while it invokes a rule, `left` times at
the most. A replacement is recorded once it is complete, so after those made
inside it. -/
def settle (settings : Settings) (scene : Scene) (depth : Nat) (left : Nat) (form : Form) :
    Run Form :=
  match settings.registry.invocation? form with
  | none => pure form
  | some (entry, args) =>
    match left with
    | 0 => throw (.replacedTooOften entry.id settings.limits.replacements)
    | left + 1 => do
      let replacement ← entry.apply scene.means args
      Run.note (·.record settings.tracing entry.id depth)
      settings.settle scene depth left replacement

/-- Expands a form below `depth` levels, with `room` levels left. -/
def expand (settings : Settings) : (room depth : Nat) → Frame → Form → Run Form
  | 0, _, _, _ => throw (.nestedTooDeep settings.limits.depth)
  | room + 1, depth, frame, form => do
    Run.note (·.reach (depth + 1))
    let scene : Scene := ⟨settings.registry, frame, settings.expand room (depth + 1)⟩
    let settled ← settings.settle scene (depth + 1) settings.limits.replacements form
    scene.descend settled

/-- The surroundings at the start of a run. -/
def scene (settings : Settings) (frame : Frame) : Scene :=
  ⟨settings.registry, frame, settings.expand settings.limits.depth 0⟩

end Settings

end Rulebook
