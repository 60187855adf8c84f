import Rulebook.Proofs.Lockstep

/-!
# What expansion ends in

How a run ends does not depend on how it started: neither the progress made
before nor the level of a form shows in the result. So expansion has an outcome
as a plain function of the room, the frame and the form, and this file gives
the equations of that function. They follow the two moves of expansion. A form
is first replaced until it rests, and then the forms inside are expanded, each
to its own outcome.
-/

namespace Rulebook

/-- The run ends so, whatever it starts from. -/
def Run.Yields {α : Type} (run : Run α) (result : Except Fault α) : Prop :=
  ∀ progress, (run.perform progress).1 = result

namespace Run.Yields

theorem pure {α : Type} (value : α) : (Pure.pure value : Run α).Yields (.ok value) := fun _ => rfl

theorem bind {α β : Type} {run : Run α} {result : Except Fault α} {next : α → Run β}
    {rest : α → Except Fault β} (h : run.Yields result)
    (hnext : ∀ value, (next value).Yields (rest value)) :
    (run >>= next).Yields (result >>= rest) := by
  intro progress
  have hresult := h progress
  rw [perform_bind]
  rcases hrun : run.perform progress with ⟨ending, after⟩
  rw [hrun] at hresult
  dsimp only at hresult
  subst hresult
  cases ending with
  | ok value => exact hnext value after
  | error fault => rfl

theorem mapM {α β : Type} {turn : α → Run β} {result : α → Except Fault β}
    (h : ∀ item, (turn item).Yields (result item)) (items : List α) :
    (items.mapM turn).Yields (items.mapM result) := by
  induction items with
  | nil => exact pure []
  | cons item items ih =>
      rw [List.mapM_cons, List.mapM_cons]
      exact (h item).bind fun first => ih.bind fun rest => pure (first :: rest)

end Run.Yields

namespace Settings

/-- What a form is expanded to with `room` levels to go down. -/
def outcome (settings : Settings) (room : Nat) (frame : Frame) (form : Form) :
    Except Fault Form :=
  ((settings.expand room 0 frame form).perform {}).1

/-- What a form is replaced by in the end, with `room` levels below it. -/
def rest (settings : Settings) (room : Nat) (frame : Frame) (form : Form) :
    Except Fault Form :=
  ((settings.settle (settings.inside room 0 frame) 0 settings.limits.replacements form).perform
    {}).1

theorem expand_yields (settings : Settings) (room depth : Nat) (frame : Frame) (form : Form) :
    (settings.expand room depth frame form).Yields (settings.outcome room frame form) :=
  fun progress => settings.expand_result room depth 0 frame form progress {}

theorem settle_yields (settings : Settings) (room depth level : Nat) (frame : Frame)
    (form : Form) :
    (settings.settle (settings.inside room depth frame) level settings.limits.replacements
      form).Yields (settings.rest room frame form) := by
  intro progress
  have hscenes : Pairing.sameResult.Scenes (settings.inside room depth frame)
      (settings.inside room 0 frame) :=
    ⟨rfl, .refl frame, fun {inner outer} hframe part before other => by
      have hcongr : (settings.inside room depth frame).expandIn inner part =
          settings.expand room depth outer part := settings.expand_congr room depth hframe part
      rw [hcongr]
      exact settings.expand_result room depth 0 outer part before other⟩
  exact Pairing.sameResult.settle settings hscenes level 0 (fun _ _ _ => rfl) _ form progress {}

/-- Replacement stops at a form that invokes no rule, if it stops at all. -/
theorem invocation?_of_settle {settings : Settings} {scene : Scene} {depth left : Nat}
    {form rested : Form} {before after : Progress}
    (h : (settings.settle scene depth left form).perform before = (.ok rested, after)) :
    settings.registry.invocation? rested = none := by
  induction left generalizing form before with
  | zero =>
      unfold Settings.settle at h
      split at h
      · next hidle =>
          cases h
          exact hidle
      · cases h
  | succ left ih =>
      unfold Settings.settle at h
      split at h
      · next hidle =>
          cases h
          exact hidle
      · obtain ⟨replacement, between, -, h⟩ := Run.perform_bind_ok h
        obtain ⟨_, later, -, h⟩ := Run.perform_bind_ok h
        exact ih h

theorem invocation?_of_rest {settings : Settings} {room : Nat} {frame : Frame}
    {form rested : Form} (h : settings.rest room frame form = .ok rested) :
    settings.registry.invocation? rested = none :=
  invocation?_of_settle (Prod.ext h rfl)

/-- What the forms inside a form that rests are expanded to. -/
def descended (settings : Settings) (room : Nat) (frame : Frame) (rested : Form) :
    Except Fault Form :=
  match rested with
  | .list items =>
    if rested.head? = some "quote" then .ok rested
    else do return .list (← items.mapM (settings.outcome room frame))
  | .function (.list items) => do return .function (← settings.outcome room frame (.list items))
  | rested => .ok rested

theorem descended_of_passed {rested : Form} (hlist : ∀ items, rested ≠ .list items)
    (hmark : ∀ items, rested ≠ .function (.list items)) (settings : Settings) (room : Nat)
    (frame : Frame) : settings.descended room frame rested = .ok rested := by
  unfold descended
  split
  · next items => exact absurd rfl (hlist items)
  · next items => exact absurd rfl (hmark items)
  · rfl

theorem descend_yields (settings : Settings) (room depth : Nat) (frame : Frame) (rested : Form) :
    ((settings.inside room depth frame).descend rested).Yields
      (settings.descended room frame rested) := by
  unfold Scene.descend
  split
  · next items =>
      rw [descended]
      by_cases hdata : (Form.list items).head? = some "quote"
      · rw [if_pos hdata, if_pos hdata]
        exact .pure _
      · rw [if_neg hdata, if_neg hdata]
        exact (Run.Yields.mapM (settings.expand_yields room depth frame) items).bind
          fun results => .pure (Form.list results)
  · next items =>
      exact (settings.expand_yields room depth frame (.list items)).bind
        fun inner => .pure (Form.function inner)
  · next hlist hmark =>
      rw [descended_of_passed hlist hmark]
      exact .pure _

theorem outcome_zero (settings : Settings) (frame : Frame) (form : Form) :
    settings.outcome 0 frame form = .error (.nestedTooDeep settings.limits.depth) := rfl

theorem outcome_succ (settings : Settings) (room : Nat) (frame : Frame) (form : Form) :
    settings.outcome (room + 1) frame form =
      settings.rest room frame form >>= settings.descended room frame := by
  have hsettle := settings.settle_yields room 1 1 frame form
  exact (hsettle.bind (settings.descend_yields room 1 frame)) _

/-- `Descends room frame rested out`: the forms inside `rested` have outcomes, and
`out` is `rested` with these in their place. -/
inductive Descends (settings : Settings) (room : Nat) (frame : Frame) : Form → Form → Prop
  | items {items results : List Form} (code : (Form.list items).head? ≠ some "quote")
      (each : List.Forall₂ (fun item result => settings.outcome room frame item = .ok result)
        items results) : Descends settings room frame (.list items) (.list results)
  | marked {items : List Form} {inner : Form}
      (ended : settings.outcome room frame (.list items) = .ok inner) :
      Descends settings room frame (.function (.list items)) (.function inner)
  | data {items : List Form} (data : (Form.list items).head? = some "quote") :
      Descends settings room frame (.list items) (.list items)
  | passed {form : Form} (unlisted : ∀ items, form ≠ .list items)
      (unmarked : ∀ items, form ≠ .function (.list items)) : Descends settings room frame form form

theorem descends_of_descended {settings : Settings} {room : Nat} {frame : Frame}
    {rested out : Form} (h : settings.descended room frame rested = .ok out) :
    settings.Descends room frame rested out := by
  unfold descended at h
  split at h
  · next items =>
      split at h
      · next hdata =>
          cases h
          exact .data hdata
      · next hcode =>
          obtain ⟨results, heach, h⟩ := bind_eq_ok.mp h
          cases h
          exact .items hcode (mapM_eq_ok.mp heach)
  · next items =>
      obtain ⟨inner, hinner, h⟩ := bind_eq_ok.mp h
      cases h
      exact .marked hinner
  · next hlist hmark =>
      cases h
      exact .passed hlist hmark

/-- How a form comes to its outcome. -/
theorem outcome_cases {settings : Settings} {room : Nat} {frame : Frame} {form out : Form}
    (h : settings.outcome (room + 1) frame form = .ok out) :
    ∃ rested, settings.rest room frame form = .ok rested ∧
      settings.registry.invocation? rested = none ∧ settings.Descends room frame rested out := by
  rw [outcome_succ] at h
  obtain ⟨rested, hrest, h⟩ := bind_eq_ok.mp h
  exact ⟨rested, hrest, invocation?_of_rest hrest, descends_of_descended h⟩

end Settings

end Rulebook
