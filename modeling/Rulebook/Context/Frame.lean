import Rulebook.Fault

/-!
# Frames

A frame is the context that a form is expanded in. Scopes only ever put
bindings in front of it, so an inner scope shadows what an outer one bound, and
a scope is left by taking up the frame that was active before it.
-/

namespace Rulebook

/-- Context bindings, innermost first. Shadowed ones are kept. -/
structure Frame where
  bindings : List (Key × Form)
deriving Repr, DecidableEq, Inhabited

namespace Frame

/-- The frame that binds nothing. -/
def empty : Frame := ⟨[]⟩

/-- Puts one binding in front. -/
def bind (frame : Frame) (key : Key) (value : Form) : Frame :=
  ⟨(key, value) :: frame.bindings⟩

/-- Puts several bindings in front, the last of them innermost. -/
def bindAll (frame : Frame) (bindings : List (Key × Form)) : Frame :=
  bindings.foldl (fun inner (key, value) => inner.bind key value) frame

/-- The innermost binding of a key. -/
def find? (frame : Frame) (key : Key) : Option Form :=
  frame.bindings.lookup key

/-- The innermost binding of a key that some scope has to bind. -/
def deduce (frame : Frame) (key : Key) : Except Fault Form :=
  match frame.find? key with
  | some value => .ok value
  | none => .error (.notDeducible key)

/-- Whether nothing is bound. -/
def isEmpty (frame : Frame) : Bool := frame.bindings.isEmpty

@[simp]
theorem find?_empty (key : Key) : empty.find? key = none := rfl

/-- A binding put in front is found under its own key and hides no other. -/
theorem find?_bind (frame : Frame) (bound key : Key) (value : Form) :
    (frame.bind bound value).find? key = if key = bound then some value else frame.find? key := by
  by_cases h : key = bound
  · simp [find?, bind, h]
  · have apart : (key == bound) = false := by simpa using h
    simp [find?, bind, List.lookup_cons, h, apart]

end Frame

end Rulebook
