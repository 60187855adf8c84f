import Rulebook.Proofs.Confinement
import Rulebook.Proofs.Registration
import Rulebook.Proofs.Restoration
import Rulebook.Proofs.Scenes

/-!
# Setups by the forms they expand

A setup numbers its token, expands a few forms and puts something around what they
come to. The first and the last are plain functions, so all that there is to say of
a setup is what becomes of the forms it expands. These are its body, if need be
with its name in front and with the root rule around them: nothing that the setup
was not given, apart from the name of a rule.

The built-in rules are told from others by what their entries show. They act
natively, so that related forms go through them as related forms, and none of them
has a name that a setup gives a meaning of its own.
-/

namespace Rulebook

/-! ## The built-in registry -/

/-- A registry of rules that act natively, none of them in the way of a tag. -/
def Registry.Native (registry : Registry) : Prop :=
  ∀ (id : String) (entry : Entry), registry.find? id = some entry →
    ¬ Form.TakesTag id ∧ ¬ "setup-quit-".toList <+: id.toList ∧ entry.action.isNative = true

namespace Catalogue

/-- Every entry of the built-in registry records a rule of the catalogue. -/
theorem exists_rule_of_find? {id : String} {entry : Entry} (h : registry.find? id = some entry) :
    ∃ rule ∈ rules, rule.name = id ∧ entry.Records rule := by
  obtain ⟨rule, hlast, hrecords⟩ := (Registry.holds_empty.install rules).find?.mp h
  obtain ⟨hmem, hname⟩ := List.mem_filter.mp (List.mem_of_getLast? hlast)
  rw [List.nil_append] at hmem
  exact ⟨rule, (List.takeWhile_sublist _).subset hmem, by simpa using hname, hrecords⟩

theorem native_registry : Catalogue.registry.Native := by
  have hrules : ∀ rule ∈ Catalogue.rules, ¬ Form.TakesTag rule.name ∧
      ¬ "setup-quit-".toList <+: rule.name.toList ∧ rule.action.isNative = true := by
    decide
  intro id entry hfind
  obtain ⟨rule, hrule, rfl, hrecords⟩ := exists_rule_of_find? hfind
  rw [hrecords.action]
  exact hrules rule hrule

/-- No built-in rule takes a name of the host's own. -/
theorem not_contains_names :
    ∀ name ∈ HostCode.names, Catalogue.registry.contains name = false := by
  decide +kernel

end Catalogue

namespace Registry

theorem of_invocation? {registry : Registry} {form : Form} {entry : Entry}
    {args : List Form} (h : registry.invocation? form = some (entry, args)) :
    ∃ id, form = .list (.symbol id :: args) ∧ registry.find? id = some entry := by
  obtain ⟨⟨id, given⟩, hcall, h⟩ := Option.bind_eq_some_iff.mp h
  obtain ⟨found, hfind, h⟩ := Option.bind_eq_some_iff.mp h
  cases h
  refine ⟨id, ?_, hfind⟩
  unfold Form.call? at hcall
  split at hcall
  · cases hcall
    rfl
  · cases hcall

theorem invocation?_of_head? {registry : Registry} {form : Form} (h : form.head? = none) :
    registry.invocation? form = none := by
  rw [invocation?, Option.map_eq_none_iff.mp h]
  rfl

/-- Forms that look the same to a rule invoke the same one, if any. -/
theorem Native.invokes {registry : Registry} (h : registry.Native)
    {related member : Form → Form → Prop} (htransfers : Transfers related member)
    (hargs : ∀ {id : String} {args copies : List Form}, ¬ Form.TakesTag id →
      related (.call id args) (.call id copies) → List.Forall₂ related args copies) :
    Relating.Invokes registry related := by
  intro form twin hform
  have hheads := htransfers.head?_eq hform
  cases hhead : form.head? with
  | none => exact .inl ⟨invocation?_of_head? hhead, invocation?_of_head? (hheads.trans hhead)⟩
  | some id =>
      obtain ⟨args, rfl⟩ := Form.exists_call_of_head? hhead
      obtain ⟨copies, rfl⟩ := Form.exists_call_of_head? (hheads.trans hhead)
      simp only [invocation?, Form.call, Form.call?, Option.bind_eq_bind, Option.bind_some]
      cases hfind : registry.find? id with
      | none => exact .inl ⟨rfl, rfl⟩
      | some entry =>
          obtain ⟨htakes, -, hnative⟩ := h id entry hfind
          exact .inr ⟨entry, args, copies, rfl, rfl, hnative, hargs htakes hform⟩

end Registry

/-! ## Setups -/

namespace Session

theorem perform_nextNumber (number : UInt64) :
    nextNumber.perform number = (.ok number, number + 1) := rfl

theorem perform_bind {α β : Type} (session : Session α) (next : α → Session β) (number : UInt64) :
    (session >>= next).perform number =
      match session.perform number with
      | (.ok value, after) => (next value).perform after
      | (.error fault, after) => (.error fault, after) := by
  rw [perform, run_bind, perform]
  rcases (ExceptT.run session).run number with ⟨_ | _, _⟩ <;> rfl

end Session

namespace Setup

/-- The forms of a setup expanded, when its token has the number given. -/
def expanded (registry : Registry) (host : Host) (options : SetupOptions) (name : Form)
    (body : List Form) (number : UInt64) : Except Fault (List Form) × Progress :=
  let settings : Settings := ⟨registry, options.limits, options.tracing⟩
  ((settings.scene (host.frame.bind .quit (token number))).expandAll
    (rooted registry options.rootRule name body)).perform {}

/-- What a setup made of its expanded forms. -/
def outcomeOf (registry : Registry) (name : Form) (number : UInt64) (forms : List Form)
    (progress : Progress) : Outcome where
  form := assemble (token number) progress.guarded forms
  target := target? registry name
  token := token number
  progress := progress

/-- The expander of a setup comes to what the run comes to. -/
theorem perform_run (registry : Registry) (host : Host) (options : SetupOptions) (name : Form)
    (body : List Form) (number : UInt64) :
    (run registry host options name body).perform number =
      if host.lexical then
        match expanded registry host options name body number with
        | (.error fault, _) => (.error fault, number + 1)
        | (.ok forms, progress) => (.ok (outcomeOf registry name number forms progress), number + 1)
      else (.error .dynamicScoping, number) := by
  let expander : Expander :=
    { settings := ⟨registry, options.limits, options.tracing⟩
      frame := host.frame.bind .quit (token number) }
  have hcarry : (expander.means.expandAll (rooted registry options.rootRule name body)).perform
      expander = ((expanded registry host options name body number).1,
        { expander with progress := (expanded registry host options name body number).2 }) :=
    Work.perform_eq_carry (expander.agrees.expandAll _)
  unfold run
  cases host.lexical with
  | false => rfl
  | true =>
      change (Session.nextNumber >>= fun _ => _).perform number = _
      rw [Session.perform_bind, Session.perform_nextNumber]
      dsimp only
      rw [hcarry]
      rcases expanded registry host options name body number with ⟨_ | forms, progress⟩
      · rfl
      · rfl

theorem mem_of_target {shorthand : Shorthand} {args : List Form} {target : Form}
    (h : shorthand.target args = some target) : target ∈ args := by
  cases shorthand with
  | first => exact List.mem_of_mem_head? h
  | second => exact List.mem_of_getElem? h
  | last => exact List.mem_of_getLast? h
  | never => cases h

section Rooted

variable {P : Form → Prop} {registry : Registry} {name : Form} {body : List Form}

theorem keeps_target? (hitems : ∀ {items : List Form}, P (.list items) → ∀ item ∈ items, P item)
    (hname : P name) {target : Form} (h : target? registry name = some target) : P target := by
  unfold target? at h
  split at h
  · obtain ⟨⟨entry, args⟩, hcall, h⟩ := Option.bind_eq_some_iff.mp h
    obtain ⟨shorthand, -, h⟩ := Option.bind_eq_some_iff.mp h
    obtain ⟨id, hlist, -⟩ := Registry.of_invocation? hcall
    rw [hlist] at hname
    exact hitems hname target (by simp [mem_of_target h])
  · cases h
    exact hname

/-- What the name and the body have, the forms that are expanded have, if the
root rule may be put around them. -/
theorem keeps_rooted (hitems : ∀ {items : List Form}, P (.list items) → ∀ item ∈ items, P item)
    (hroot : ∀ {root : String} {args : List Form}, registry.contains root = true →
      (∀ arg ∈ args, P arg) → P (.call root args))
    (hname : P name) (hbody : ∀ form ∈ body, P form) (rootRule : Option String) :
    ∀ form ∈ rooted registry rootRule name body, P form := by
  have hforms : ∀ form ∈ wholeBody name body, P form := by
    unfold wholeBody
    split
    · exact List.forall_mem_cons.mpr ⟨hname, hbody⟩
    · exact hbody
  unfold rooted
  split
  · next _ _ target root htarget =>
      split
      · next hknown =>
          have htarget := keeps_target? hitems hname htarget
          exact List.forall_mem_singleton.mpr
            (hroot hknown (List.forall_mem_cons.mpr ⟨htarget, hforms⟩))
      · exact hforms
  · exact hforms

end Rooted

end Setup

end Rulebook
