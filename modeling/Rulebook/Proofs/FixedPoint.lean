import Rulebook.Builtin.Catalogue
import Rulebook.Expansion.Visible
import Rulebook.Proofs.Outcome

/-!
# When the result of expansion is settled

Expansion leaves a settled form as it is, and the room it had the first time is
enough to go over the result a second time. Whether the result is settled is
the harder question. A form rests once it invokes no rule, and only then are
its items expanded, the head among them. A head that is itself a list may
become the name of a rule that way, and the list around it is not looked at
again. Nothing else goes wrong: the result is settled exactly when no such name
surfaces.

Settledness is a statement about every form that expansion looks at, and the
proofs go down level by level, so the first section says what is looked at next
inside one form.
-/

namespace Rulebook

namespace Form

/-- The forms inside a form that expansion looks at next. -/
def parts : Form → List Form
  | .list items => if (Form.list items).head? = some "quote" then [] else items
  | .function (.list items) => [.list items]
  | _ => []

theorem head?_list_eq_some {first : Form} {items : List Form} {name : String} :
    (Form.list (first :: items)).head? = some name ↔ first = .symbol name := by
  cases first <;> simp [head?, call?]

theorem parts_of_data {items : List Form} (h : (Form.list items).head? = some "quote") :
    (Form.list items).parts = [] := by
  rw [parts, if_pos h]

theorem parts_of_code {items : List Form} (h : (Form.list items).head? ≠ some "quote") :
    (Form.list items).parts = items := by
  rw [parts, if_neg h]

theorem mem_of_mem_parts {part : Form} {items : List Form} (h : part ∈ (Form.list items).parts) :
    part ∈ items := by
  rw [parts] at h
  split at h
  · cases h
  · exact h

theorem parts_of_passed {form : Form} (hlist : ∀ items, form ≠ .list items)
    (hmark : ∀ items, form ≠ .function (.list items)) : form.parts = [] := by
  unfold parts
  split
  · next items => exact absurd rfl (hlist items)
  · next items => exact absurd rfl (hmark items)
  · rfl

theorem walk_eq (form : Form) : form.walk = walkOf form.parts + 1 := by
  unfold parts
  split
  · next items =>
      rw [walk]
      split <;> rfl
  · next items => rw [walk, walkOf, walkOf, Nat.max_zero]
  · next hlist hmark =>
      rw [walk, walkOf]
      · exact hlist
      · exact hmark

theorem walk_le_walkOf {item : Form} {items : List Form} (hi : item ∈ items) :
    item.walk ≤ walkOf items := by
  induction items with
  | nil => cases hi
  | cons first rest ih =>
      rw [walkOf]
      rcases List.mem_cons.mp hi with rfl | hi
      · exact Nat.le_max_left _ _
      · exact Nat.le_trans (ih hi) (Nat.le_max_right _ _)

theorem walkOf_le {items : List Form} {room : Nat} (h : ∀ item ∈ items, item.walk ≤ room) :
    walkOf items ≤ room := by
  induction items with
  | nil => exact Nat.zero_le _
  | cons first rest ih =>
      rw [walkOf]
      exact Nat.max_le.mpr ⟨h first (by simp), ih fun item hi => h item (by simp [hi])⟩

/-- Forms in sequence take one level more than each of them, less the one that
the form itself is at. The name `progn` takes a level too, and so does the first
of the forms. -/
theorem walkOf_parts_sequence {forms : List Form} {room : Nat}
    (h : ∀ form ∈ forms, form.walk ≤ room) : walkOf (sequence forms).parts ≤ room := by
  unfold sequence
  split
  · exact Nat.zero_le _
  · next form =>
      have hwalk := h form (by simp)
      rw [walk_eq] at hwalk
      omega
  · next hsome _ =>
      refine walkOf_le fun part hpart => ?_
      rcases List.mem_cons.mp (mem_of_mem_parts hpart) with rfl | hpart
      · obtain ⟨first, rest, rfl⟩ := List.exists_cons_of_ne_nil hsome
        have hfirst := h first (by simp)
        rw [walk_eq] at hfirst ⊢
        simp only [parts, walkOf]
        omega
      · exact h part hpart

theorem Visible.part {part form : Form} (hpart : part ∈ form.parts) : Visible part form := by
  unfold parts at hpart
  split at hpart
  · next items =>
      split at hpart
      · cases hpart
      · next hcode => exact .item hcode hpart (.root _)
  · next items =>
      rw [List.mem_singleton.mp hpart]
      exact .marked (.root _)
  · cases hpart

theorem Visible.trans {part middle form : Form} (h : Visible part middle)
    (hmiddle : Visible middle form) : Visible part form := by
  induction h with
  | root => exact hmiddle
  | item hcode hmem _ ih => exact .item hcode hmem (ih hmiddle)
  | marked _ ih => exact .marked (ih hmiddle)

/-- Expansion looks at a form and at what it looks at inside the parts: a step
further in is one from the form itself or one from inside a part. -/
theorem visible_iff {part form : Form} :
    Visible part form ↔ part = form ∨ ∃ inner ∈ form.parts, Visible part inner := by
  constructor
  · intro h
    induction h with
    | root form => exact .inl rfl
    | item hcode hmem _ ih =>
        rcases ih with rfl | ⟨inner, hinner, hvisible⟩
        · exact .inr ⟨_, by rwa [parts_of_code hcode], .root _⟩
        · exact .inr ⟨inner, hinner, .item hcode hmem hvisible⟩
    | marked _ ih =>
        rcases ih with rfl | ⟨inner, hinner, hvisible⟩
        · exact .inr ⟨_, List.mem_singleton.mpr rfl, .root _⟩
        · exact .inr ⟨inner, hinner, .marked hvisible⟩
  · rintro (rfl | ⟨inner, hinner, hvisible⟩)
    · exact .root _
    · exact hvisible.trans (.part hinner)

end Form

theorem Registry.settled_iff {registry : Registry} {form : Form} :
    registry.Settled form ↔
      registry.invocation? form = none ∧ ∀ part ∈ form.parts, registry.Settled part := by
  constructor
  · intro h
    refine ⟨h form (.root _), fun part hpart inner hinner => ?_⟩
    exact h inner (hinner.trans (.part hpart))
  · rintro ⟨hform, hparts⟩ part hvisible
    rcases Form.visible_iff.mp hvisible with rfl | ⟨inner, hinner, hvisible⟩
    · exact hform
    · exact hparts inner hinner part hvisible

theorem Registry.not_settled_iff {registry : Registry} {form : Form} :
    ¬ registry.Settled form ↔
      registry.invocation? form ≠ none ∨ ∃ part ∈ form.parts, ¬ registry.Settled part := by
  rw [settled_iff, not_and_or]
  simp only [not_forall, exists_prop, ne_eq]

theorem Registry.invocation?_ne_none_iff {registry : Registry} {first : Form}
    {items : List Form} :
    registry.invocation? (.list (first :: items)) ≠ none ↔
      ∃ name, first = .symbol name ∧ registry.contains name := by
  cases first with
  | symbol name => simp [invocation?, Form.call?, contains, Option.isSome_iff_exists]
  | _ => simp [invocation?, Form.call?]

theorem Registry.invocation?_of_ne_list (registry : Registry) {form : Form}
    (h : ∀ items, form ≠ .list items) : registry.invocation? form = none := by
  cases form with
  | list items => exact absurd rfl (h items)
  | _ => rfl

theorem Registry.invocation?_call {registry : Registry} {head : String}
    (h : registry.contains head = false) (args : List Form) :
    registry.invocation? (.call head args) = none := by
  by_contra hcall
  obtain ⟨name, hname, hknown⟩ := invocation?_ne_none_iff.mp hcall
  cases hname
  rw [h] at hknown
  cases hknown

theorem Registry.settled_symbol (registry : Registry) (name : String) :
    registry.Settled (.symbol name) :=
  settled_iff.mpr ⟨rfl, fun _ hpart => nomatch hpart⟩

/-- A call by a name of the host's own is settled if its arguments are. -/
theorem Registry.settled_call {registry : Registry} {head : String} {args : List Form}
    (hhead : registry.contains head = false) (hcode : head ≠ "quote") :
    registry.Settled (.call head args) ↔ ∀ arg ∈ args, registry.Settled arg := by
  have hparts : (Form.list (.symbol head :: args)).parts = .symbol head :: args :=
    Form.parts_of_code fun hquote => hcode (by simpa using Form.head?_list_eq_some.mp hquote)
  rw [Form.call, settled_iff, hparts, List.forall_mem_cons]
  exact ⟨fun h => h.2.2, fun h => ⟨invocation?_call hhead args, registry.settled_symbol head, h⟩⟩

theorem Registry.settled_sequence {registry : Registry} {forms : List Form}
    (h : registry.contains "progn" = false) :
    registry.Settled (.sequence forms) ↔ ∀ form ∈ forms, registry.Settled form := by
  unfold Form.sequence
  split
  · exact iff_of_true (registry.settled_symbol "nil") fun _ hform => absurd hform List.not_mem_nil
  · rw [List.forall_mem_singleton]
  · exact settled_call h (by decide)

/-! ## Going over a settled form -/

theorem Progress.reach_reach (progress : Progress) (depth deeper : Nat) :
    (progress.reach depth).reach deeper = progress.reach (max depth deeper) := by
  simp [reach, Nat.max_assoc]

theorem Progress.reach_of_le {progress : Progress} {depth : Nat} (h : depth ≤ progress.deepest) :
    progress.reach depth = progress := by
  rw [reach, Nat.max_eq_left h]

/-- Forms that are each left as they are, below level `depth`. -/
theorem Scene.expandAll_of_walk (scene : Scene) {depth : Nat} {items : List Form}
    (h : ∀ item ∈ items, ∀ progress, (scene.expandIn scene.frame item).perform progress =
      (.ok item, progress.reach (depth + item.walk)))
    {progress : Progress} (hdeep : depth ≤ progress.deepest) :
    (scene.expandAll items).perform progress =
      (.ok items, progress.reach (depth + Form.walkOf items)) := by
  induction items generalizing progress with
  | nil =>
      rw [Form.walkOf, Nat.add_zero, Progress.reach_of_le hdeep]
      rfl
  | cons item items ih =>
      have hdeeper : depth ≤ (progress.reach (depth + item.walk)).deepest :=
        Nat.le_trans hdeep (Nat.le_max_left _ _)
      have hrest := ih (fun one ho => h one (by simp [ho])) hdeeper
      rw [Progress.reach_reach, Nat.add_max_add_left] at hrest
      rw [expandAll, List.mapM_cons, Form.walkOf]
      rw [Run.perform_bind_of_ok (h item (by simp) progress)]
      exact Run.perform_bind_of_ok hrest

namespace Settings

/-- Going over a settled form applies no rule and changes nothing. All it does
is to note the levels it enters. -/
theorem expand_of_settled {settings : Settings} {room : Nat} {form : Form}
    (h : settings.registry.Settled form) (hroom : form.walk ≤ room) (depth : Nat) (frame : Frame)
    (progress : Progress) :
    (settings.expand room depth frame form).perform progress =
      (.ok form, progress.reach (depth + form.walk)) := by
  induction room generalizing form depth progress with
  | zero =>
      rw [Form.walk_eq] at hroom
      omega
  | succ room ih =>
      obtain ⟨hidle, hparts⟩ := Registry.settled_iff.mp h
      rw [Form.walk_eq] at hroom ⊢
      have hinner : ∀ part ∈ form.parts, ∀ before,
          (settings.expand room (depth + 1) frame part).perform before =
            (.ok part, before.reach (depth + 1 + part.walk)) := by
        intro part hpart before
        have hwalk := Form.walk_le_walkOf hpart
        exact ih (hparts part hpart) (by omega) (depth + 1) before
      have hentered : depth + 1 ≤ (progress.reach (depth + 1)).deepest := Nat.le_max_right _ _
      rw [expand_succ, settle_of_idle hidle, pure_bind, Run.perform_bind_of_ok (by rfl)]
      rw [show depth + (Form.walkOf form.parts + 1) =
        max (depth + 1) (depth + 1 + Form.walkOf form.parts) by omega, ← Progress.reach_reach]
      unfold Scene.descend
      split
      · next items =>
          split
          · next hdata =>
              rw [Form.parts_of_data hdata, Form.walkOf, Nat.add_zero,
                Progress.reach_of_le hentered]
              rfl
          · next hcode =>
              rw [Form.parts_of_code hcode] at hinner ⊢
              exact Run.perform_bind_of_ok (Scene.expandAll_of_walk _ hinner hentered)
      · next items =>
          have hlist := hinner (.list items) (List.mem_singleton.mpr rfl)
            (progress.reach (depth + 1))
          rw [Form.parts, Form.walkOf, Form.walkOf, Nat.max_zero]
          exact Run.perform_bind_of_ok hlist
      · next hlist hmark =>
          rw [Form.parts_of_passed hlist hmark, Form.walkOf, Nat.add_zero,
            Progress.reach_of_le hentered]
          rfl

/-- The result of expansion has no more levels than expansion had room. -/
theorem walk_le_of_outcome {settings : Settings} {room : Nat} {frame : Frame} {form out : Form}
    (h : settings.outcome room frame form = .ok out) : out.walk ≤ room := by
  induction room generalizing form out with
  | zero =>
      rw [outcome_zero] at h
      cases h
  | succ room ih =>
      obtain ⟨rested, -, -, hdescends⟩ := outcome_cases h
      rw [Form.walk_eq]
      refine Nat.succ_le_succ (Form.walkOf_le fun part hpart => ?_)
      cases hdescends with
      | items hcode heach =>
          obtain ⟨item, -, hitem⟩ := exists_mem_of_forall₂ heach.flip (Form.mem_of_mem_parts hpart)
          exact ih hitem
      | @marked _ inner hinner =>
          cases inner with
          | list results =>
              rw [List.mem_singleton.mp hpart]
              exact ih hinner
          | _ => cases hpart
      | data hdata =>
          rw [Form.parts_of_data hdata] at hpart
          cases hpart
      | passed hlist hmark =>
          rw [Form.parts_of_passed hlist hmark] at hpart
          cases hpart

/-! ## Names that surface -/

theorem rest_of_idle {settings : Settings} {form : Form}
    (h : settings.registry.invocation? form = none) (room : Nat) (frame : Frame) :
    settings.rest room frame form = .ok form := by
  rw [rest, settle_of_idle h]
  rfl

theorem outcome_symbol (settings : Settings) (room : Nat) (frame : Frame) (name : String) :
    settings.outcome (room + 1) frame (.symbol name) = .ok (.symbol name) := by
  rw [outcome_succ, rest_of_idle rfl]
  rfl

/-- Only a symbol itself and a list become a symbol. -/
theorem eq_symbol_of_outcome {settings : Settings} {room : Nat} {frame : Frame} {form : Form}
    {name : String} (hlist : ∀ items, form ≠ .list items)
    (h : settings.outcome room frame form = .ok (.symbol name)) : form = .symbol name := by
  cases room with
  | zero => cases h
  | succ room =>
      obtain ⟨rested, hrest, -, hdescends⟩ := outcome_cases h
      rw [rest_of_idle (settings.registry.invocation?_of_ne_list hlist)] at hrest
      cases hrest
      cases hdescends
      rfl

/-- While a form is expanded with `room` levels to go down, the name of a rule
comes to stand at the head of a list that the result shows: the head was a list
and became that name. -/
inductive Surfaces (settings : Settings) (frame : Frame) : Nat → Form → Prop
  | head {room : Nat} {form : Form} {call items : List Form} {name : String}
      (rested : settings.rest room frame form = .ok (.list (.list call :: items)))
      (became : settings.outcome room frame (.list call) = .ok (.symbol name))
      (known : settings.registry.contains name) : Surfaces settings frame (room + 1) form
  | item {room : Nat} {form first item : Form} {items : List Form}
      (rested : settings.rest room frame form = .ok (.list (first :: items)))
      (code : settings.outcome room frame first ≠ .ok (.symbol "quote"))
      (mem : item ∈ first :: items) (within : Surfaces settings frame room item) :
      Surfaces settings frame (room + 1) form
  | marked {room : Nat} {form : Form} {items results : List Form}
      (rested : settings.rest room frame form = .ok (.function (.list items)))
      (ended : settings.outcome room frame (.list items) = .ok (.list results))
      (within : Surfaces settings frame room (.list items)) :
      Surfaces settings frame (room + 1) form

/-- A result that is not settled shows the name of a rule that surfaced. If the
result is itself a call of a rule, what it came from was not; if the call is in
a part, then the result is not headed by `quote`, for such a list has no parts. -/
theorem surfaces_of_outcome {settings : Settings} {room : Nat} {frame : Frame} {form out : Form}
    (h : settings.outcome room frame form = .ok out) (hout : ¬ settings.registry.Settled out) :
    settings.Surfaces frame room form := by
  induction room generalizing form out with
  | zero => cases h
  | succ room ih =>
      obtain ⟨rested, hrest, hidle, hdescends⟩ := outcome_cases h
      rcases Registry.not_settled_iff.mp hout with hcall | ⟨part, hpart, hunsettled⟩
      · cases hdescends with
        | items hcode heach =>
            cases heach with
            | nil => exact absurd rfl hcall
            | @cons first _ _ _ hfirst _ =>
                obtain ⟨name, rfl, hknown⟩ := Registry.invocation?_ne_none_iff.mp hcall
                by_cases hlist : ∃ call, first = .list call
                · obtain ⟨call, rfl⟩ := hlist
                  exact .head hrest hfirst hknown
                · have hsame := eq_symbol_of_outcome (fun call hc => hlist ⟨call, hc⟩) hfirst
                  exact absurd hidle (Registry.invocation?_ne_none_iff.mpr ⟨name, hsame, hknown⟩)
        | marked _ => exact absurd rfl hcall
        | data _ => exact absurd hidle hcall
        | passed _ _ => exact absurd hidle hcall
      · cases hdescends with
        | items hcode heach =>
            obtain ⟨item, hitem, hended⟩ :=
              exists_mem_of_forall₂ heach.flip (Form.mem_of_mem_parts hpart)
            cases heach with
            | nil => cases hpart
            | cons hfirst _ =>
                refine .item hrest (fun hquote => ?_) hitem (ih hended hunsettled)
                cases hfirst.symm.trans hquote
                cases hpart
        | @marked _ inner hinner =>
            cases inner with
            | list results =>
                rw [List.mem_singleton.mp hpart] at hunsettled
                exact .marked hrest hinner (ih hinner hunsettled)
            | _ => cases hpart
        | data hdata =>
            rw [Form.parts_of_data hdata] at hpart
            cases hpart
        | passed hlist hmark =>
            rw [Form.parts_of_passed hlist hmark] at hpart
            cases hpart

/-- A name that surfaces is still there in the result. It surfaces only where
there is room below, so a head that was `quote` stays that and hides nothing. -/
theorem Surfaces.not_settled {settings : Settings} {room : Nat} {frame : Frame}
    {form out : Form} (hsurfaces : settings.Surfaces frame room form)
    (h : settings.outcome room frame form = .ok out) : ¬ settings.registry.Settled out := by
  rw [Registry.not_settled_iff]
  induction hsurfaces generalizing out with
  | head hrested hbecame hknown =>
      obtain ⟨rested, hrest, -, hdescends⟩ := outcome_cases h
      cases hrested.symm.trans hrest
      cases hdescends with
      | items hcode heach =>
          cases heach with
          | cons hfirst _ =>
              cases hbecame.symm.trans hfirst
              exact .inl (Registry.invocation?_ne_none_iff.mpr ⟨_, rfl, hknown⟩)
      | data hdata => cases hdata
      | passed hlist _ => exact absurd rfl (hlist _)
  | @item room _ first _ _ hrested hcode hmem hwithin ih =>
      obtain ⟨rested, hrest, -, hdescends⟩ := outcome_cases h
      cases hrested.symm.trans hrest
      cases hdescends with
      | items _ heach =>
          obtain ⟨result, hresult, hended⟩ := exists_mem_of_forall₂ heach hmem
          refine .inr ⟨result, ?_, Registry.not_settled_iff.mpr (ih hended)⟩
          rw [Form.parts_of_code]
          · exact hresult
          · intro hdata
            cases heach with
            | cons hfirst _ =>
                rw [Form.head?_list_eq_some.mp hdata] at hfirst
                exact hcode hfirst
      | data hdata =>
          rw [Form.head?_list_eq_some.mp hdata] at hcode
          cases hwithin <;> exact absurd (settings.outcome_symbol _ frame "quote") hcode
      | passed hlist _ => exact absurd rfl (hlist _)
  | marked hrested hended _ ih =>
      obtain ⟨rested, hrest, -, hdescends⟩ := outcome_cases h
      cases hrested.symm.trans hrest
      cases hdescends with
      | marked hinner =>
          cases hended.symm.trans hinner
          refine .inr ⟨_, List.mem_singleton.mpr rfl, Registry.not_settled_iff.mpr (ih hinner)⟩
      | passed _ hmark => exact absurd rfl (hmark _)

end Settings

/-- What expansion ends in is settled exactly when no name of a rule surfaced on
the way. Going over it again, with the same room and in whatever context, then
applies no rule and changes nothing. -/
theorem expand_settled_iff (settings : Settings) {room depth : Nat} {frame : Frame}
    {form out : Form} {progress after : Progress}
    (h : (settings.expand room depth frame form).perform progress = (.ok out, after)) :
    (settings.registry.Settled out ↔ ¬ settings.Surfaces frame room form) ∧
    (settings.registry.Settled out → ∀ other before,
      (settings.expand room depth other out).perform before =
        (.ok out, before.reach (depth + out.walk))) := by
  have houtcome : settings.outcome room frame form = .ok out := by
    rw [← settings.expand_yields room depth frame form progress, h]
  refine ⟨⟨?_, ?_⟩, ?_⟩
  · intro hsettled hsurfaces
    exact hsurfaces.not_settled houtcome hsettled
  · intro hno
    by_contra hunsettled
    exact hno (Settings.surfaces_of_outcome houtcome hunsettled)
  · intro hsettled other before
    exact Settings.expand_of_settled hsettled (Settings.walk_le_of_outcome houtcome) depth other
      before

/-- The settings of a run with the built-in rules. -/
def builtinSettings : Settings := { registry := Catalogue.registry }

/-- A context that binds a hook only. -/
def hookFrame : Frame := Frame.empty.bind .hook (.symbol "h")

/-- The code that adds `a` to the hook of that context. -/
def hookCode : Form := .call "add-hook" [.quote (.symbol "h"), .function (.symbol "a")]

theorem expand_hook :
    ((builtinSettings.expand 256 0 hookFrame (.call ":hook" [.symbol "a"])).perform {}).1 =
      .ok hookCode := by
  rfl

theorem expand_settled_iff_of_hook :
    (∃ after, (builtinSettings.expand 256 0 hookFrame (.call ":hook" [.symbol "a"])).perform {} =
      (.ok hookCode, after)) ∧
    builtinSettings.registry.Settled hookCode ∧
    ¬ builtinSettings.Surfaces hookFrame 256 (.call ":hook" [.symbol "a"]) ∧
    (builtinSettings.expand 256 0 .empty hookCode).perform {} =
      (.ok hookCode, { deepest := 2 }) := by
  have hrun : (builtinSettings.expand 256 0 hookFrame (.call ":hook" [.symbol "a"])).perform {} =
      (.ok hookCode,
        ((builtinSettings.expand 256 0 hookFrame (.call ":hook" [.symbol "a"])).perform {}).2) :=
    Prod.ext expand_hook rfl
  have hsettled : builtinSettings.registry.Settled hookCode := by
    refine Registry.settled_iff.mpr ⟨by rfl, fun part hpart => ?_⟩
    have hatoms : part = .symbol "add-hook" ∨ part = .quote (.symbol "h") ∨
        part = .function (.symbol "a") := by
      simpa using Form.mem_of_mem_parts hpart
    rcases hatoms with rfl | rfl | rfl <;>
      exact Registry.settled_iff.mpr ⟨rfl, fun _ hnone => nomatch hnone⟩
  obtain ⟨hiff, hagain⟩ := expand_settled_iff builtinSettings hrun
  exact ⟨⟨_, hrun⟩, hsettled, hiff.mp hsettled, hagain hsettled .empty {}⟩

/-- A head that becomes the name of a rule is not invoked, and the next pass
invokes it. -/
theorem expand_not_settled_of_list_head :
    ((builtinSettings.expand 256 0 hookFrame
        (.list [.call ":with-map" [.symbol "m", .symbol ":hook"], .symbol "a"])).perform {}).1 =
      .ok (.call ":hook" [.symbol "a"]) ∧
    ¬ builtinSettings.registry.Settled (.call ":hook" [.symbol "a"]) ∧
    ((builtinSettings.expand 256 0 hookFrame (.call ":hook" [.symbol "a"])).perform {}).1 =
      .ok hookCode := by
  refine ⟨by rfl, Registry.not_settled_iff.mpr (.inl ?_), expand_hook⟩
  exact Registry.invocation?_ne_none_iff.mpr ⟨":hook", rfl, by rfl⟩

end Rulebook
