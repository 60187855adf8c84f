import Rulebook.Proofs.Finality
import Rulebook.Proofs.LevelCost

/-!
# Searching a form for invocations

`Form.invokes` answers whether a list headed by a name is left anywhere in a
form, and it is asked about the names of rules to learn whether expansion would
still find one to apply. It walks the form in a way of its own. It goes into
every list and beneath every function mark, and what it leaves out are quote
marks and vectors. Expansion leaves out more: the arguments of a `quote` that is
written out are data to it, and beneath a function mark it looks at a list only,
so not at a second function mark.

So the search comes by every list that expansion looks at, and in these two
places by lists that expansion overlooks. That is all: the two agree about a
name unless the overlooked lists make the difference. A search for rules that
finds none is therefore right, and one that finds a rule may be wrong: expansion
may well go over the whole form and apply nothing.

What expansion finds is first a matter of where it looks, and the last section
ties that to its runs. A run that ends well and has counted no replacement came
by no invocation, because an application is counted once it is complete and no
step of a run ever counts down.
-/

namespace Rulebook

namespace Form

/-- `Overlooked part form`: `part` is exposed inside a form that expansion looks at
and goes no further into. -/
inductive Overlooked (part form : Form) : Prop
  /-- In a list headed by `quote`. -/
  | data {items : List Form} {item : Form} (seen : Visible (.list items) form)
      (data : (Form.list items).head? = some "quote") (mem : item ∈ items)
      (within : Exposed part item)
  /-- Beneath a function mark on something else than a list. -/
  | marked {inner : Form} (seen : Visible (.function inner) form)
      (unlisted : ∀ items, inner ≠ .list items) (within : Exposed part inner)

/-- Expansion looks at a list headed by `head`. -/
def Shows (form : Form) (head : String) : Prop :=
  ∃ part, Visible part form ∧ part.head? = some head

/-- A list headed by `head` is overlooked. -/
def Hides (form : Form) (head : String) : Prop :=
  ∃ part, Overlooked part form ∧ part.head? = some head

/-! ## What the search comes by -/

theorem anyInvokes_iff {head : String} {items : List Form} :
    anyInvokes head items ↔ ∃ item ∈ items, item.invokes head := by
  induction items with
  | nil => simp [anyInvokes]
  | cons first rest ih => simp [anyInvokes, ih]

theorem invokes_iff_inside {head : String} {form : Form} :
    form.invokes head ↔
      form.head? = some head ∨ ∃ inner ∈ form.inside, inner.invokes head := by
  cases form with
  | list items => rw [invokes, Bool.or_eq_true, beq_iff_eq, anyInvokes_iff, inside]
  | _ => simp [invokes, inside, head?, call?]

theorem invokes_iff_exposed {head : String} {form : Form} :
    form.invokes head ↔ ∃ part, Exposed part form ∧ part.head? = some head := by
  have hstep : ∀ form : Form, (∀ inner ∈ form.inside,
      (inner.invokes head ↔ ∃ part, Exposed part inner ∧ part.head? = some head)) →
      (form.invokes head ↔ ∃ part, Exposed part form ∧ part.head? = some head) := by
    intro form ih
    rw [invokes_iff_inside]
    constructor
    · rintro (hhead | ⟨inner, hinner, hinvokes⟩)
      · exact ⟨form, .root _, hhead⟩
      · obtain ⟨part, hpart, hhead⟩ := (ih inner hinner).mp hinvokes
        exact ⟨part, hpart.trans (.inner hinner), hhead⟩
    · rintro ⟨part, hpart, hhead⟩
      rcases exposed_iff.mp hpart with rfl | ⟨inner, hinner, hpart⟩
      · exact .inl hhead
      · exact .inr ⟨inner, hinner, (ih inner hinner).mpr ⟨part, hpart, hhead⟩⟩
  induction form using Form.induct with
  | list items ih => exact hstep _ ih
  | function inner ih => exact hstep _ (List.forall_mem_singleton.mpr ih)
  | symbol | text | int | quote | vector => exact hstep _ fun _ hinner => nomatch hinner

theorem Visible.exposed {part form : Form} (h : Visible part form) : Exposed part form := by
  induction h with
  | root form => exact .root form
  | item _ hmem _ ih => exact .item hmem ih
  | marked _ ih => exact .marked ih

theorem Overlooked.exposed {part form : Form} (h : Overlooked part form) : Exposed part form := by
  cases h with
  | data hseen _ hmem hwithin => exact hwithin.trans (.item hmem hseen.exposed)
  | marked hseen _ hwithin => exact hwithin.trans (.marked hseen.exposed)

theorem Overlooked.inward {part middle form : Form} (h : Overlooked middle form)
    (hpart : Exposed part middle) : Overlooked part form := by
  cases h with
  | data hseen hdata hmem hwithin => exact .data hseen hdata hmem (hpart.trans hwithin)
  | marked hseen hlist hwithin => exact .marked hseen hlist (hpart.trans hwithin)

/-- What the search comes by, expansion looks at or overlooks. A step further
inside what it looks at may be one that it does not take, and every step inside
what it overlooks is overlooked. -/
theorem exposed_iff_visible_or_overlooked {part form : Form} :
    Exposed part form ↔ Visible part form ∨ Overlooked part form := by
  constructor
  · intro h
    induction h with
    | root form => exact .inl (.root form)
    | @item _ _ items hmem _ ih =>
        rcases ih with hseen | hover
        · by_cases hdata : (Form.list items).head? = some "quote"
          · exact .inr (.data hseen hdata hmem (.root _))
          · exact .inl (.item hdata hmem hseen)
        · exact .inr (hover.inward (.item hmem (.root _)))
    | @marked part _ _ ih =>
        rcases ih with hseen | hover
        · by_cases hlist : ∃ items, part = .list items
          · obtain ⟨items, rfl⟩ := hlist
            exact .inl (.marked hseen)
          · exact .inr (.marked hseen (fun items heq => hlist ⟨items, heq⟩) (.root _))
        · exact .inr (hover.inward (.marked (.root _)))
  · rintro (h | h)
    · exact h.exposed
    · exact h.exposed

theorem invokes_iff_shows_or_hides {form : Form} {head : String} :
    form.invokes head ↔ form.Shows head ∨ form.Hides head := by
  simp only [invokes_iff_exposed, exposed_iff_visible_or_overlooked, or_and_right, exists_or,
    Shows, Hides]

end Form

/-! ## Searching for rules -/

namespace Registry

theorem invocation?_eq_none_iff {registry : Registry} {form : Form} :
    registry.invocation? form = none ↔
      ∀ id, registry.contains id → form.head? ≠ some id := by
  cases form with
  | list items =>
      cases items with
      | nil => exact iff_of_true rfl fun _ _ hhead => nomatch hhead
      | cons first items =>
          rw [← not_iff_not, ← ne_eq, invocation?_ne_none_iff]
          simp [Form.head?_list_eq_some, and_comm]
  | _ => exact iff_of_true rfl fun _ _ hhead => nomatch hhead

/-- Expansion finds no rule in a form that shows the name of none. -/
theorem settled_iff_not_shows {registry : Registry} {form : Form} :
    registry.Settled form ↔ ∀ id, registry.contains id → ¬ form.Shows id := by
  constructor
  · rintro h id hknown ⟨part, hpart, hhead⟩
    exact invocation?_eq_none_iff.mp (h part hpart) id hknown hhead
  · intro h part hpart
    exact invocation?_eq_none_iff.mpr fun id hknown hhead => h id hknown ⟨part, hpart, hhead⟩

theorem not_invokes_iff {registry : Registry} {form : Form} :
    (∀ id, registry.contains id → ¬ form.invokes id) ↔
      registry.Settled form ∧ ∀ id, registry.contains id → ¬ form.Hides id := by
  simp only [Form.invokes_iff_shows_or_hides, not_or, settled_iff_not_shows, forall_and]

end Registry

/-! ## Runs that replace nothing -/

/-- A run that keeps the replacements counted before. -/
def Pairing.replacing : Pairing :=
  .along (fun before after => before.replacements ≤ after.replacements) (fun _ => Nat.le_refl _)
    Nat.le_trans fun _ => Nat.le_refl _

namespace Settings

theorem expand_counts_on (settings : Settings) (room depth : Nat) (frame : Frame) (form : Form)
    (progress : Progress) :
    progress.replacements ≤
      ((settings.expand room depth frame form).perform progress).2.replacements :=
  Pairing.replacing.expand settings depth depth (fun _ _ _ _ => Nat.le_refl _)
    (fun _ _ _ _ _ => Nat.le_succ _) (Frame.Agrees.refl frame) form progress

theorem replacing_scenes (settings : Settings) (room depth : Nat) (frame : Frame) :
    Pairing.replacing.Scenes (settings.inside room depth frame)
      (settings.inside room depth frame) :=
  ⟨rfl, .refl frame, fun _ form => settings.expand_counts_on room depth _ form⟩

/-- A form that invokes a rule is replaced at least once before it rests. -/
theorem invocation?_of_not_replaced {settings : Settings} {room depth left : Nat} {frame : Frame}
    {form rested : Form} {before after : Progress}
    (h : (settings.settle (settings.inside room depth frame) depth left form).perform before =
      (.ok rested, after))
    (hcount : after.replacements ≤ before.replacements) :
    settings.registry.invocation? form = none := by
  have hscenes := settings.replacing_scenes room depth frame
  unfold settle at h
  split at h
  · next hidle => exact hidle
  · next entry args hcall =>
      cases left with
      | zero => cases h
      | succ left =>
          obtain ⟨replacement, applied, happly, h⟩ := Run.perform_bind_ok h
          obtain ⟨_, recorded, hrecord, h⟩ := Run.perform_bind_ok h
          cases hrecord
          have hone := hscenes.apply entry args before
          have hrest := Pairing.replacing.settle settings hscenes depth depth
            (fun _ _ => Nat.le_succ _) left replacement
            (applied.record settings.tracing entry.id depth)
          rw [happly] at hone
          rw [h] at hrest
          change applied.replacements + 1 ≤ after.replacements at hrest
          exact absurd hcount (Nat.not_le.mpr (Nat.lt_of_le_of_lt hone hrest))

/-- A run over several forms that replaces nothing is made of such runs. -/
theorem expandAll_not_replaced {settings : Settings} {room depth : Nat} {frame : Frame}
    {items results : List Form} {before after : Progress}
    (h : ((settings.inside room depth frame).expandAll items).perform before =
      (.ok results, after))
    (hcount : after.replacements ≤ before.replacements) :
    ∀ item ∈ items, ∃ result middle later,
      (settings.expand room depth frame item).perform middle = (.ok result, later) ∧
        later.replacements ≤ middle.replacements := by
  induction items generalizing results before with
  | nil => exact fun _ hitem => absurd hitem List.not_mem_nil
  | cons first items ih =>
      rw [Scene.expandAll, List.mapM_cons] at h
      obtain ⟨result, between, hfirst, h⟩ := Run.perform_bind_ok h
      obtain ⟨rest, ended, hrest, h⟩ := Run.perform_bind_ok h
      cases h
      have hone := settings.expand_counts_on room depth frame first before
      have hothers := (settings.replacing_scenes room depth frame).expandAll items between
      change (settings.expand room depth frame first).perform before = _ at hfirst
      change ((settings.inside room depth frame).expandAll items).perform between = _ at hrest
      rw [hfirst] at hone
      rw [hrest] at hothers
      refine List.forall_mem_cons.mpr ⟨⟨result, before, between, hfirst, ?_⟩, ih hrest ?_⟩
      · exact Nat.le_trans hothers hcount
      · exact Nat.le_trans hcount hone

/-- A form that a run goes over without a replacement has no rule to apply where
expansion looks. -/
theorem settled_of_not_replaced {settings : Settings} {room depth : Nat} {frame : Frame}
    {form out : Form} {before after : Progress}
    (h : (settings.expand room depth frame form).perform before = (.ok out, after))
    (hcount : after.replacements ≤ before.replacements) :
    settings.registry.Settled form := by
  induction room generalizing depth form out before after with
  | zero => cases h
  | succ room ih =>
      rw [expand_succ] at h
      obtain ⟨_, entered, hreach, h⟩ := Run.perform_bind_ok h
      cases hreach
      obtain ⟨rested, between, hsettle, hdescend⟩ := Run.perform_bind_ok h
      have hscenes := settings.replacing_scenes room (depth + 1) frame
      have hdescent := hscenes.descend rested between
      rw [hdescend] at hdescent
      have hidle := invocation?_of_not_replaced hsettle (Nat.le_trans hdescent hcount)
      rw [settle_of_idle hidle] at hsettle
      cases hsettle
      refine Registry.settled_iff.mpr ⟨hidle, fun part hpart => ?_⟩
      unfold Scene.descend at hdescend
      split at hdescend
      · next items =>
          split at hdescend
          · next hdata =>
              rw [Form.parts_of_data hdata] at hpart
              cases hpart
          · next hcode =>
              obtain ⟨results, ended, hitems, hdescend⟩ := Run.perform_bind_ok hdescend
              cases hdescend
              obtain ⟨result, middle, later, hitem, hlater⟩ :=
                expandAll_not_replaced hitems hcount part (Form.mem_of_mem_parts hpart)
              exact ih hitem hlater
      · next items =>
          obtain ⟨inner, ended, hinner, hdescend⟩ := Run.perform_bind_ok hdescend
          cases hdescend
          rw [List.mem_singleton.mp hpart]
          exact ih hinner hcount
      · next hlist hmark =>
          rw [Form.parts_of_passed hlist hmark] at hpart
          cases hpart

/-- Expansion comes to an end without a replacement exactly where there is no rule
to apply, and room to go over the whole form. -/
theorem not_replaced_iff (settings : Settings) (room depth : Nat) (frame : Frame) (form : Form)
    (progress : Progress) :
    (∃ out after, (settings.expand room depth frame form).perform progress = (.ok out, after) ∧
      after.replacements = progress.replacements) ↔
    settings.registry.Settled form ∧ form.walk ≤ room := by
  constructor
  · rintro ⟨out, after, hrun, hcount⟩
    have hsettled := settled_of_not_replaced hrun (Nat.le_of_eq hcount)
    refine ⟨hsettled, Nat.le_of_not_lt fun htall => ?_⟩
    have houtcome := settings.expand_yields room depth frame form progress
    rw [hrun, outcome, expand_of_tall hsettled htall frame (Nat.zero_le _)] at houtcome
    cases houtcome
  · rintro ⟨hsettled, hroom⟩
    exact ⟨form, _, expand_of_settled hsettled hroom depth frame progress, rfl⟩

end Settings

/-- The search finds a name if the form shows or hides it. So it agrees with
expansion about a name exactly when the form does not hide a name that it does
not show, and about the rules of a registry exactly when a form in which
expansion finds no rule hides the name of none. That expansion finds no rule
means that it comes to an end without a replacement wherever there is room to go
over the form. -/
theorem invokes_agrees_iff (form : Form) :
    (∀ head, form.invokes head ↔ form.Shows head ∨ form.Hides head) ∧
    (∀ head, (form.invokes head ↔ form.Shows head) ↔ (form.Hides head → form.Shows head)) ∧
    ∀ settings : Settings,
      ((∀ id, settings.registry.contains id → ¬ form.invokes id) ↔
        settings.registry.Settled form ∧
          ∀ id, settings.registry.contains id → ¬ form.Hides id) ∧
      (((∀ id, settings.registry.contains id → ¬ form.invokes id) ↔
          settings.registry.Settled form) ↔
        (settings.registry.Settled form →
          ∀ id, settings.registry.contains id → ¬ form.Hides id)) ∧
      ∀ room depth frame progress,
        (∃ out after,
          (settings.expand room depth frame form).perform progress = (.ok out, after) ∧
            after.replacements = progress.replacements) ↔
        settings.registry.Settled form ∧ form.walk ≤ room := by
  refine ⟨fun head => Form.invokes_iff_shows_or_hides, fun head => ?_, fun settings =>
    ⟨Registry.not_invokes_iff, ?_, fun room depth frame progress =>
      settings.not_replaced_iff room depth frame form progress⟩⟩
  · rw [Form.invokes_iff_shows_or_hides, or_iff_left_iff_imp]
  · rw [Registry.not_invokes_iff, and_iff_left_iff_imp]

/-- An invocation among the arguments of a written-out `quote`. -/
def quotedHook : Form := .call "quote" [.call ":hook" [.symbol "a"]]

/-- An invocation beneath two function marks. -/
def doublyMarkedHook : Form := .function (.function (.call ":hook" [.symbol "a"]))

/-- The search finds the rule, and expansion goes over both forms without looking
at its invocation. -/
theorem invokes_disagrees_of_hidden_hook :
    builtinSettings.registry.contains ":hook" ∧
    (quotedHook.invokes ":hook" ∧ ¬ quotedHook.Shows ":hook" ∧
      builtinSettings.registry.Settled quotedHook ∧
      (builtinSettings.expand 256 0 .empty quotedHook).perform {} =
        (.ok quotedHook, { deepest := 1 })) ∧
    doublyMarkedHook.invokes ":hook" ∧ ¬ doublyMarkedHook.Shows ":hook" ∧
      builtinSettings.registry.Settled doublyMarkedHook ∧
      (builtinSettings.expand 256 0 .empty doublyMarkedHook).perform {} =
        (.ok doublyMarkedHook, { deepest := 1 }) := by
  have hknown : builtinSettings.registry.contains ":hook" := by decide +kernel
  have hhost : builtinSettings.registry.contains "quote" = false := by decide +kernel
  have hquoted : builtinSettings.registry.Settled quotedHook :=
    Registry.settled_iff.mpr ⟨Registry.invocation?_call hhost _, fun _ hpart => nomatch hpart⟩
  have hmarked : builtinSettings.registry.Settled doublyMarkedHook :=
    Registry.settled_iff.mpr ⟨rfl, fun _ hpart => nomatch hpart⟩
  refine ⟨hknown, ⟨by rfl, ?_, hquoted, ?_⟩, by rfl, ?_, hmarked, ?_⟩
  · exact Registry.settled_iff_not_shows.mp hquoted ":hook" hknown
  · exact Settings.expand_of_settled hquoted (by decide) 0 .empty {}
  · exact Registry.settled_iff_not_shows.mp hmarked ":hook" hknown
  · exact Settings.expand_of_settled hmarked (by decide) 0 .empty {}

end Rulebook
