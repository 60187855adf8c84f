import Rulebook.Proofs.Lockstep

/-!
# Scenes that take related forms

A rule sees of its scene what the context binds and what becomes of the forms that
it has expanded. So two scenes whose contexts bind related forms, and which expand
related forms to related ones, stay related in all that a rule has them do. They do
so in an inner scope as well, since a scope binds names only, and related names are
one name. All this is gone through once here, for whatever is to be kept by
expansion: a property of forms, a renaming, or just equality.

An early exit is left open. It asks for the one binding on which contexts may differ
as they like, and what it makes of the answer is not in the hands of a rule. Left
open is also how the forms inside a settled form are put back in their places, for
the list that holds them was made by no rule.

A property of one run is a relation that does not look at the other. So what is gone
through here for two scenes also says what a single one keeps.
-/

namespace Rulebook

/-- Contexts that bind related forms to every key but that of early exits, what rules
may complain of, and what a run may note. -/
structure Relating.Contexts (relating : Relating Run Run) (related member : Form → Form → Prop)
    (contexts : Frame → Frame → Prop) : Prop where
  transfers : Transfers related member
  deduce : ∀ {frame other : Frame} {key : Key}, contexts frame other → key ≠ .quit →
    Outcomes relating.faults related (frame.deduce key) (other.deduce key)
  bind : ∀ {frame other : Frame} {key : Key} {name : String}, contexts frame other →
    key ≠ .quit → related (.symbol name) (.symbol name) →
      contexts (frame.bind key (.symbol name)) (other.bind key (.symbol name))
  unknownTarget : ∀ {form twin : Form}, related form twin →
    relating.faults (.unknownTarget form) (.unknownTarget twin)
  expectedSymbol : ∀ (rule : String) {form twin : Form}, member form twin →
    relating.faults (.expectedSymbol rule form) (.expectedSymbol rule twin)
  fault : ∀ fault : Fault, ¬ fault.IsMissing → relating.faults fault fault
  /-- A note that leaves the flag alone. -/
  note : ∀ {change : Progress → Progress},
    (∀ progress, (change progress).guarded = progress.guarded) →
      relating.holds Eq (Run.note change) (Run.note change)

/-- Scenes in related contexts that expand related forms to related ones. -/
structure Relating.Scenes (relating : Relating Run Run) (related : Form → Form → Prop)
    (contexts : Frame → Frame → Prop) (scene other : Scene) : Prop where
  frame : contexts scene.frame other.frame
  expandIn : ∀ {inner outer : Frame} {form twin : Form}, contexts inner outer →
    related form twin →
      relating.holds related (scene.expandIn inner form) (other.expandIn outer twin)

/-- Function marks stand before related forms, or before symbols. -/
structure Relating.Marks (related : Form → Form → Prop) : Prop where
  function : ∀ {form twin : Form}, related form twin → related (.function form) (.function twin)
  inner : ∀ {form twin : Form}, related (.function form) (.function twin) →
    related form twin ∨ ∃ one two, form = .symbol one ∧ twin = .symbol two

namespace Relating

variable {relating : Relating Run Run} {related member : Form → Form → Prop}
  {contexts : Frame → Frame → Prop}

namespace Contexts

variable (hcontexts : relating.Contexts related member contexts) {frame other : Frame}

include hcontexts

theorem bindAll_modeBindings (hframe : contexts frame other) {mode : String}
    (hmode : related (.symbol mode) (.symbol mode)) :
    contexts (frame.bindAll (Scope.modeBindings mode))
      (other.bindAll (Scope.modeBindings mode)) := by
  have hmap := hcontexts.transfers.ended hmode (show "-map" ∈ ["-mode", "-map", "-hook"] by decide)
  have hhook := hcontexts.transfers.ended hmode
    (show "-hook" ∈ ["-mode", "-map", "-hook"] by decide)
  have hfirst := hcontexts.bind hframe (show Key.mode ≠ .quit by decide) hmode
  exact hcontexts.bind (hcontexts.bind hfirst (by decide) hmap) (by decide) hhook

/-- In the scope of a related target contexts stay related. -/
theorem bindings (hframe : contexts frame other) (scope : Scope) {target twin : Form}
    (htarget : member target twin) :
    Outcomes relating.faults
      (fun bindings copies => contexts (frame.bindAll bindings) (other.bindAll copies))
      (scope.bindings target) (scope.bindings twin) := by
  have hrefused := hcontexts.expectedSymbol scope.ruleName htarget
  unfold Scope.bindings
  split
  · next name =>
      obtain ⟨rfl, hname⟩ := hcontexts.transfers.member_symbol htarget
      refine .ok ?_
      cases scope with
      | feature =>
          have hmode := hcontexts.transfers.withEnding hname
            (show "-mode" ∈ ["-mode", "-map", "-hook"] by decide)
          exact hcontexts.bindAll_modeBindings (hcontexts.bind hframe (by decide) hname) hmode
      | mode => exact hcontexts.bindAll_modeBindings hframe hname
      | map => exact hcontexts.bind hframe (by decide) hname
      | hook => exact hcontexts.bind hframe (by decide) hname
  · next hsymbol =>
      split
      · next name => exact absurd (hcontexts.transfers.symbol_member htarget) (hsymbol name)
      · exact .error hrefused

end Contexts

namespace Scenes

variable {scene other : Scene} {forms twins : List Form}

theorem expandAll (h : relating.Scenes related contexts scene other)
    (hforms : List.Forall₂ related forms twins) :
    relating.holds (List.Forall₂ related) (scene.expandAll forms) (other.expandAll twins) :=
  relating.mapM hforms fun _ _ _ hform => h.expandIn h.frame hform

theorem expandFor (h : relating.Scenes related contexts scene other)
    (hcontexts : relating.Contexts related member contexts) (scope : Scope)
    (hbody : List.Forall₂ related forms twins) {target twin : Form} (htarget : member target twin) :
    relating.holds (List.Forall₂ related) (scene.expandFor scope forms target)
      (other.expandFor scope twins twin) := by
  refine relating.bind (relating.settled (hcontexts.bindings h.frame scope htarget)) ?_
  intro bindings copies hframe
  have hscenes : relating.Scenes related contexts (scene.withFrame (scene.frame.bindAll bindings))
      (other.withFrame (other.frame.bindAll copies)) := ⟨hframe, h.expandIn⟩
  exact hscenes.expandAll hbody

theorem enter (h : relating.Scenes related contexts scene other)
    (hcontexts : relating.Contexts related member contexts) (scope : Scope) {targets copy : Form}
    (htargets : related targets copy) (hbody : List.Forall₂ related forms twins) :
    relating.holds related (scene.enter scope targets forms) (other.enter scope copy twins) := by
  have hturns := relating.mapM (hcontexts.transfers.elements htargets)
    fun _ _ _ htarget => h.expandFor hcontexts scope hbody htarget
  refine relating.bind hturns fun results copies hresults => relating.pure ?_
  exact hcontexts.transfers.sequence (List.rel_flatten hresults)

/-- What a rule is handed in related scenes. -/
theorem serves (h : relating.Scenes related contexts scene other)
    (hcontexts : relating.Contexts related member contexts) :
    relating.Serves related member scene.means other.means where
  transfers := hcontexts.transfers
  deduce hkey := relating.settled (hcontexts.deduce h.frame hkey)
  enter scope _ _ _ _ htargets hbody := h.enter hcontexts scope htargets hbody
  unknownTarget := hcontexts.unknownTarget
  expectedSymbol rule _ _ hform := hcontexts.expectedSymbol rule (hcontexts.transfers.among hform)
  fault := hcontexts.fault

/-- What lies inside a list is related once it is expanded, if a list is related by
its items and by nothing else. -/
theorem expandItems (h : relating.Scenes related contexts scene other)
    (hitems : ∀ {items copies : List Form}, related (.list items) (.list copies) ↔
      List.Forall₂ related items copies)
    (hlist : related (.list forms) (.list twins)) :
    relating.holds related (do return Form.list (← scene.expandAll forms))
      (do return Form.list (← other.expandAll twins)) :=
  relating.bind (h.expandAll (hitems.mp hlist)) fun _ _ hresults =>
    relating.pure (hitems.mpr hresults)

/-- The forms inside a settled form are put back, if a list is. -/
theorem descend (h : relating.Scenes related contexts scene other)
    (htransfers : Transfers related member) (hmarks : Marks related)
    (hlist : ∀ {items copies : List Form}, related (.list items) (.list copies) →
      relating.holds related (do return Form.list (← scene.expandAll items))
        (do return Form.list (← other.expandAll copies)))
    {form twin : Form} (hform : related form twin) :
    relating.holds related (scene.descend form) (other.descend twin) := by
  have hsame : relating.holds related (Pure.pure form) (Pure.pure twin) :=
    relating.pure hform
  cases htransfers.alike hform with
  | list heach =>
      simp only [Scene.descend, htransfers.head?_eq hform]
      split
      · exact hsame
      · exact hlist hform
  | function inner copy =>
      rcases hmarks.inner hform with hinner | ⟨one, two, rfl, rfl⟩
      · cases htransfers.alike hinner with
        | list heach =>
            exact relating.bind (h.expandIn h.frame hinner) fun _ _ hresult =>
              relating.pure (hmarks.function hresult)
        | _ => exact hsame
      · exact hsame
  | _ => exact hsame

end Scenes

/-! ## Expansion -/

/-- Related forms invoke the same built-in rule with related arguments, or neither
invokes one. -/
def Invokes (registry : Registry) (related : Form → Form → Prop) : Prop :=
  ∀ {form twin : Form}, related form twin →
    (registry.invocation? form = none ∧ registry.invocation? twin = none) ∨
      ∃ entry args copies, registry.invocation? form = some (entry, args) ∧
        registry.invocation? twin = some (entry, copies) ∧ entry.action.isNative = true ∧
        List.Forall₂ related args copies

section

variable (hcontexts : relating.Contexts related member contexts)
  (hlate : TransfersLater related member) {settings : Settings}
  (hinvokes : Invokes settings.registry related)
  (hmissing : ∀ args count, relating.Excuses args count)

include hcontexts hlate hinvokes hmissing

theorem Scenes.settle {scene other : Scene} (h : relating.Scenes related contexts scene other)
    (hexit : relating.Exits related scene.means other.means) (depth left : Nat) {form twin : Form}
    (hform : related form twin) :
    relating.holds related (settings.settle scene depth left form)
      (settings.settle other depth left twin) := by
  induction left generalizing form twin with
  | zero =>
      unfold Settings.settle
      rcases hinvokes hform with ⟨hone, htwo⟩ | ⟨entry, args, copies, hone, htwo, -, -⟩
      · rw [hone, htwo]
        exact relating.pure hform
      · rw [hone, htwo]
        exact relating.throw (hcontexts.fault _ id)
  | succ left ih =>
      unfold Settings.settle
      rcases hinvokes hform with ⟨hone, htwo⟩ | ⟨entry, args, copies, hone, htwo, hentry, hargs⟩
      · rw [hone, htwo]
        exact relating.pure hform
      · rw [hone, htwo]
        have happly := (h.serves hcontexts).apply hentry (fun _ => hlate) (fun _ => hexit) hargs
          fun _ _ => hmissing _ _
        refine relating.bind happly fun made made' hmade => ?_
        exact relating.bindEq (hcontexts.note fun _ => rfl) fun _ => ih hmade

/-- Expansion takes related forms to related ones below any level, with any room, if
early exits do and what lies inside a settled form is put back. -/
theorem scenes_inside
    (hexit : ∀ {scene other : Scene}, relating.Scenes related contexts scene other →
      relating.Exits related scene.means other.means)
    (hdescend : ∀ {room depth : Nat} {frame other : Frame} {form twin : Form},
      relating.Scenes related contexts (settings.inside room depth frame)
        (settings.inside room depth other) → related form twin →
      relating.holds related ((settings.inside room depth frame).descend form)
        ((settings.inside room depth other).descend twin))
    (room depth : Nat) {frame other : Frame} (hframe : contexts frame other) :
    relating.Scenes related contexts (settings.inside room depth frame)
      (settings.inside room depth other) := by
  induction room generalizing depth frame other with
  | zero => exact ⟨hframe, fun _ _ => relating.throw (hcontexts.fault _ id)⟩
  | succ room ih =>
      refine ⟨hframe, fun {inner outer form twin} hinner hform => ?_⟩
      have hscenes := ih (depth + 1) hinner
      show relating.holds related (settings.expand (room + 1) depth inner form)
        (settings.expand (room + 1) depth outer twin)
      rw [Settings.expand_succ, Settings.expand_succ]
      refine relating.bindEq (hcontexts.note fun _ => rfl) fun _ => ?_
      refine relating.bind (hscenes.settle hcontexts hlate hinvokes hmissing (hexit hscenes)
        (depth + 1) _ hform) ?_
      exact fun rested rested' hrested => hdescend hscenes hrested

end

/-! ## A run by itself -/

/-- A run whose results are right and whose faults are allowed. What is said of two
computations is said of one in this way, and what is related is a form to itself. -/
def alone (allowed : Fault → Prop) : Relating Run Run where
  holds right run _ := ∀ progress,
    (∀ value, (run.perform progress).1 = .ok value → ∃ copy, right value copy) ∧
      ∀ fault, (run.perform progress).1 = .error fault → allowed fault
  faults fault _ := allowed fault
  pure hvalue := by
    refine fun progress => ⟨fun result hresult => ?_, fun fault hfault => nomatch hfault⟩
    cases hresult
    exact ⟨_, hvalue⟩
  throw hallowed := by
    refine fun progress => ⟨fun result hresult => (nomatch hresult), fun fault hfault => ?_⟩
    cases hfault
    exact hallowed
  bind := by
    intro α β γ δ between right first second next other hfirst hnext progress
    have hone := hfirst progress
    rw [Run.perform_bind]
    rcases hrun : first.perform progress with ⟨fault | value, after⟩
    · rw [hrun] at hone
      refine ⟨fun result hresult => (nomatch hresult), fun other hother => ?_⟩
      cases hother
      exact hone.2 fault rfl
    · rw [hrun] at hone
      obtain ⟨copy, hvalue⟩ := hone.1 _ rfl
      exact hnext _ copy hvalue after

theorem alone_note (allowed : Fault → Prop) (change : Progress → Progress) :
    (alone allowed).holds Eq (Run.note change) (Run.note change) :=
  fun _ => ⟨fun value _ => ⟨value, rfl⟩, fun _ hfault => nomatch hfault⟩

end Relating

end Rulebook
