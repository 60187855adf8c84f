import Mathlib.Data.List.Induction
import Rulebook.Proofs.ScopeHiding

/-!
# Scopes inside scopes

A scope binds some of the keys and leaves the others to the scopes around it. A
feature says all there is to say about the thing that is configured, a mode says
all but the feature, a map and a hook speak for themselves only, and the tag of
early exits is no scope's business. So of any number of scopes, one inside the
other, what a key is bound to is settled by the innermost that says anything
about it, as if the others were not there.

The names go the same way. A scope derives what it binds from its own target
alone, so the map of a mode is the mode's map even inside a feature that has a
mode of its own.
-/

namespace Rulebook

/-- A scope that is entered: its level and the name of its target. -/
structure Entrance where
  scope : Scope
  name : String
deriving Repr, DecidableEq, Inhabited

/-- The levels at which a scope says what the key is bound to. -/
def Key.governors : Key → List Scope
  | .feature => [.feature]
  | .mode => [.feature, .mode]
  | .map => [.feature, .mode, .map]
  | .hook => [.feature, .mode, .hook]
  | .quit => []

namespace Entrance

/-- The mode that a feature or a mode stands for. -/
def mode (entrance : Entrance) : String :=
  if entrance.scope = .feature ∧ ¬ "-mode".toList <:+ entrance.name.toList then
    entrance.name ++ "-mode"
  else entrance.name

/-- The map that a scope stands for. -/
def map (entrance : Entrance) : String :=
  if entrance.scope = .map then entrance.name else entrance.mode ++ "-map"

/-- The hook that a scope stands for. -/
def hook (entrance : Entrance) : String :=
  if entrance.scope = .hook then entrance.name else entrance.mode ++ "-hook"

/-- What a scope that governs a key binds it to. -/
def value (entrance : Entrance) : Key → String
  | .mode => entrance.mode
  | .map => entrance.map
  | .hook => entrance.hook
  | .feature | .quit => entrance.name

/-- The last entrance of a level at which the key is governed. -/
def last? (key : Key) (entrances : List Entrance) : Option Entrance :=
  (entrances.filter (·.scope ∈ key.governors)).getLast?

theorem last?_concat (key : Key) (entrances : List Entrance) (entrance : Entrance) :
    last? key (entrances ++ [entrance]) =
      if entrance.scope ∈ key.governors then some entrance else last? key entrances := by
  rw [last?, last?, List.filter_append, List.filter_singleton]
  split
  · simp_all
  · simp_all

end Entrance

/-- The context inside scopes that are entered one after the other. -/
def Frame.enterAll (frame : Frame) (entrances : List Entrance) : Except Fault Frame :=
  entrances.foldlM
    (fun outer entrance => do
      return outer.bindAll (← entrance.scope.bindings (.symbol entrance.name)))
    frame

namespace Frame

theorem enterAll_concat (frame : Frame) (entrances : List Entrance) (entrance : Entrance) :
    frame.enterAll (entrances ++ [entrance]) =
      (frame.enterAll entrances).map (·.within entrance.scope entrance.name) := by
  rw [enterAll, List.foldlM_append, ← enterAll]
  cases frame.enterAll entrances with
  | error fault => rfl
  | ok inner => rfl

theorem modeOfFeature_eq (name : String) :
    Scope.modeOfFeature name = Entrance.mode ⟨.feature, name⟩ := by
  unfold Scope.modeOfFeature Text.withEnding Text.endsIn Entrance.mode
  by_cases h : "-mode".toList <:+ name.toList
  · rw [if_pos (List.isSuffixOf_iff_suffix.mpr h), if_neg (fun hadded => hadded.2 h)]
  · rw [if_neg (mt List.isSuffixOf_iff_suffix.mp h), if_pos ⟨rfl, h⟩]

/-- One scope: it binds the keys it governs and leaves the others. -/
theorem find?_within (frame : Frame) (entrance : Entrance) (key : Key) :
    (frame.within entrance.scope entrance.name).find? key =
      if entrance.scope ∈ key.governors then some (.symbol (entrance.value key))
      else frame.find? key := by
  obtain ⟨scope, name⟩ := entrance
  cases scope with
  | feature =>
      simp only [within, bindAll, Scope.symbolBindings, Scope.modeBindings, List.foldl_cons,
        List.foldl_nil, find?_bind, modeOfFeature_eq]
      cases key <;> rfl
  | _ =>
      simp only [within, bindAll, Scope.symbolBindings, Scope.modeBindings, List.foldl_cons,
        List.foldl_nil, find?_bind]
      cases key <;> rfl

/-- Any number of scopes. -/
theorem find?_enterAll (frame : Frame) (entrances : List Entrance) :
    ∃ inner, frame.enterAll entrances = .ok inner ∧ ∀ key,
      inner.find? key =
        ((Entrance.last? key entrances).map fun entrance =>
          Form.symbol (entrance.value key)).or (frame.find? key) := by
  induction entrances using List.reverseRecOn with
  | nil => exact ⟨frame, rfl, fun key => rfl⟩
  | append_singleton entrances entrance ih =>
      obtain ⟨outer, hentered, hfind⟩ := ih
      refine ⟨outer.within entrance.scope entrance.name, ?_, fun key => ?_⟩
      · rw [enterAll_concat, hentered]
        rfl
      · rw [find?_within, Entrance.last?_concat]
        split
        · rfl
        · exact hfind key

/-- Of scopes inside scopes the innermost that governs a key decides. The feature
is the last feature entered. The mode is that of the last feature or mode, a
feature's own name unless `-mode` has to be added. The map is the last map itself
or else the map of the last feature or mode, whichever is further in, and the
hook likewise. What none of them governs is as it was outside, and the tag of
early exits always is. -/
theorem lookups_after_entrances (frame : Frame) (entrances : List Entrance) :
    ∃ inner, frame.enterAll entrances = .ok inner ∧
      inner.find? .feature =
        ((entrances.filter (·.scope = .feature)).getLast?.map fun last =>
          Form.symbol last.name).or (frame.find? .feature) ∧
      inner.find? .mode =
        ((entrances.filter (·.scope ∈ [.feature, .mode])).getLast?.map fun last =>
          Form.symbol last.mode).or (frame.find? .mode) ∧
      inner.find? .map =
        ((entrances.filter (·.scope ∈ [.feature, .mode, .map])).getLast?.map fun last =>
          Form.symbol (if last.scope = .map then last.name else last.mode ++ "-map")).or
            (frame.find? .map) ∧
      inner.find? .hook =
        ((entrances.filter (·.scope ∈ [.feature, .mode, .hook])).getLast?.map fun last =>
          Form.symbol (if last.scope = .hook then last.name else last.mode ++ "-hook")).or
            (frame.find? .hook) ∧
      inner.find? .quit = frame.find? .quit := by
  obtain ⟨inner, hentered, hfind⟩ := frame.find?_enterAll entrances
  refine ⟨inner, hentered, ?_, hfind .mode, hfind .map, hfind .hook, ?_⟩
  · rw [hfind .feature, Entrance.last?]
    simp only [Key.governors, List.mem_singleton]
    rfl
  · rw [hfind .quit, Entrance.last?]
    simp [Key.governors]

/-- A mode inside a map inside a feature: the map in between is hidden again. -/
example :
    (empty.enterAll [⟨.feature, "foo"⟩, ⟨.map, "m"⟩, ⟨.mode, "bar-mode"⟩]).toOption.map
        (fun inner => [Key.feature, .mode, .map, .hook].map inner.find?) =
      some (["foo", "bar-mode", "bar-mode-map", "bar-mode-hook"].map (some ∘ .symbol)) := by
  decide

end Frame

end Rulebook
