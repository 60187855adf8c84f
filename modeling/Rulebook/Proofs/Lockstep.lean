import Rulebook.Expansion.Expand
import Rulebook.Proofs.Relating
import Rulebook.Proofs.Sequencing

/-!
# Runs in lockstep

A rule acts through its scene: it asks the context, expands forms, produces an
early exit, and strings these together. So if two scenes answer alike, whatever
a rule does in the one it does in the other, step for step. What `alike` means
differs from theorem to theorem, and everything it has to satisfy is collected
in `Pairing`: the two runs may be related in any way that sequencing keeps.

Of the context a scene only ever sees what a key is bound to, so the two
contexts of a pair need to agree on that and may differ in what is shadowed.
-/

namespace Rulebook

/-- Two frames that bind every key to the same form. -/
def Frame.Agrees (frame other : Frame) : Prop := ∀ key, frame.find? key = other.find? key

namespace Frame

theorem Agrees.refl (frame : Frame) : frame.Agrees frame := fun _ => rfl

theorem Agrees.deduce {frame other : Frame} (h : frame.Agrees other) (key : Key) :
    frame.deduce key = other.deduce key := by
  rw [Frame.deduce, Frame.deduce, h key]

theorem Agrees.bind {frame other : Frame} (h : frame.Agrees other) (key : Key) (value : Form) :
    (frame.bind key value).Agrees (other.bind key value) := by
  intro sought
  rw [find?_bind, find?_bind, h sought]

theorem Agrees.bindAll {frame other : Frame} (h : frame.Agrees other)
    (bindings : List (Key × Form)) : (frame.bindAll bindings).Agrees (other.bindAll bindings) := by
  induction bindings generalizing frame other with
  | nil => exact h
  | cons binding bindings ih => exact ih (h.bind binding.1 binding.2)

end Frame

namespace Settings

/-- What a form at level `depth` is expanded in, and the forms inside it after
it: the next level down has `room` levels below. -/
def inside (settings : Settings) (room depth : Nat) (frame : Frame) : Scene :=
  ⟨settings.registry, frame, settings.expand room depth⟩

theorem expand_succ (settings : Settings) (room depth : Nat) (frame : Frame) (form : Form) :
    settings.expand (room + 1) depth frame form =
      (do
        Run.note (·.reach (depth + 1))
        let settled ← settings.settle (settings.inside room (depth + 1) frame) (depth + 1)
          settings.limits.replacements form
        (settings.inside room (depth + 1) frame).descend settled) := rfl

theorem settle_of_idle {settings : Settings} {form : Form}
    (h : settings.registry.invocation? form = none) (scene : Scene) (depth left : Nat) :
    settings.settle scene depth left form = pure form := by
  unfold settle
  rw [h]

end Settings

/-- A relation between runs that holds of equal steps and passes from the parts
of a run to the whole. -/
structure Pairing where
  holds : {α : Type} → Run α → Run α → Prop
  pure : ∀ {α : Type} (value : α), holds (pure value) (pure value)
  throw : ∀ {α : Type} (fault : Fault), holds (throw fault : Run α) (throw fault)
  guard : holds (Run.note Progress.guard) (Run.note Progress.guard)
  bind : ∀ {α β : Type} {first second : Run α} {next other : α → Run β}, holds first second →
    (∀ value, holds (next value) (other value)) → holds (first >>= next) (second >>= other)

namespace Pairing

variable (pairing : Pairing)

theorem settled {α : Type} (outcome : Except Fault α) :
    pairing.holds (Means.settled outcome) (Means.settled outcome) := by
  cases outcome with
  | ok value => exact pairing.pure value
  | error fault => exact pairing.throw fault

theorem mapM {α β : Type} {turn other : α → Run β} {items : List α}
    (h : ∀ item ∈ items, pairing.holds (turn item) (other item)) :
    pairing.holds (items.mapM turn) (items.mapM other) := by
  induction items with
  | nil => exact pairing.pure []
  | cons item items ih =>
      rw [List.mapM_cons, List.mapM_cons]
      refine pairing.bind (h item (by simp)) fun first => ?_
      refine pairing.bind (ih fun one ho => h one (by simp [ho])) fun rest => ?_
      exact pairing.pure _

/-- Two scenes in which every operation is paired. -/
structure Scenes (scene other : Scene) : Prop where
  registry : scene.registry = other.registry
  frame : scene.frame.Agrees other.frame
  expandIn : ∀ {inner outer : Frame}, inner.Agrees outer → ∀ form,
    pairing.holds (scene.expandIn inner form) (other.expandIn outer form)

namespace Scenes

variable {pairing} {scene other : Scene}

theorem deduce (h : pairing.Scenes scene other) (key : Key) :
    pairing.holds (scene.deduce key) (other.deduce key) := by
  rw [Scene.deduce, Scene.deduce, h.frame.deduce key]
  exact pairing.settled _

theorem exit (h : pairing.Scenes scene other) (value : Form) :
    pairing.holds (scene.exit value) (other.exit value) := by
  refine pairing.bind (h.deduce .quit) fun token => ?_
  exact pairing.bind pairing.guard fun _ => pairing.pure _

theorem expandAll (h : pairing.Scenes scene other) (forms : List Form) :
    pairing.holds (scene.expandAll forms) (other.expandAll forms) :=
  pairing.mapM fun form _ => h.expandIn h.frame form

theorem expandBody (h : pairing.Scenes scene other) (forms : List Form) :
    pairing.holds (scene.expandBody forms) (other.expandBody forms) :=
  pairing.bind (h.expandAll forms) fun _ => pairing.pure _

theorem withFrame (h : pairing.Scenes scene other) {inner outer : Frame}
    (hframe : inner.Agrees outer) :
    pairing.Scenes (scene.withFrame inner) (other.withFrame outer) :=
  ⟨h.registry, hframe, h.expandIn⟩

theorem expandFor (h : pairing.Scenes scene other) (scope : Scope) (body : List Form)
    (target : Form) :
    pairing.holds (scene.expandFor scope body target) (other.expandFor scope body target) := by
  refine pairing.bind (pairing.settled _) fun bindings => ?_
  exact (h.withFrame (h.frame.bindAll bindings)).expandAll body

theorem enter (h : pairing.Scenes scene other) (scope : Scope) (targets : Form)
    (body : List Form) :
    pairing.holds (scene.enter scope targets body) (other.enter scope targets body) :=
  pairing.bind (pairing.mapM fun target _ => h.expandFor scope body target)
    fun _ => pairing.pure _

theorem descend (h : pairing.Scenes scene other) (form : Form) :
    pairing.holds (scene.descend form) (other.descend form) := by
  unfold Scene.descend
  split
  · next items =>
      split
      · exact pairing.pure _
      · exact pairing.bind (h.expandAll items) fun _ => pairing.pure _
  · next items =>
      exact pairing.bind (h.expandIn h.frame (.list items)) fun _ => pairing.pure _
  · exact pairing.pure _

end Scenes

/-! ## Rules -/

/-- Computations that make paired runs with whatever follows them, as long as what
follows related results is paired. -/
def relating : Relating Run Run where
  holds := fun {α β} right first second => ∀ {γ : Type} {next : α → Run γ} {other : β → Run γ},
    (∀ value copy, right value copy → pairing.holds (next value) (other copy)) →
      pairing.holds (first >>= next) (second >>= other)
  faults := Eq
  pure hvalue := by
    intro γ next other hnext
    rw [pure_bind, pure_bind]
    exact hnext _ _ hvalue
  throw hfault := by
    intro γ next other _
    subst hfault
    exact pairing.throw _
  bind hfirst h := by
    intro γ next other hnext
    rw [bind_assoc, bind_assoc]
    exact hfirst fun value copy hvalue => h value copy hvalue hnext

theorem relating_eq {α : Type} {run other : Run α} (h : pairing.holds run other) :
    pairing.relating.holds Eq run other :=
  fun hnext => pairing.bind h fun value => hnext value value rfl

theorem holds_of_relating {α : Type} {run other : Run α} (h : pairing.relating.holds Eq run other) :
    pairing.holds run other := by
  have hends : pairing.holds (run >>= Pure.pure) (other >>= Pure.pure) :=
    h fun value _ heq => heq ▸ pairing.pure value
  rwa [bind_pure, bind_pure] at hends

variable {pairing} in
theorem Scenes.agrees {scene other : Scene} (h : pairing.Scenes scene other) :
    pairing.relating.Agrees scene.means other.means where
  registry := h.registry
  deduce key := pairing.relating_eq (h.deduce key)
  exit value := pairing.relating_eq (h.exit value)
  expandAll forms := pairing.relating_eq (h.expandAll forms)
  enter scope targets body := pairing.relating_eq (h.enter scope targets body)
  fault _ _ := rfl

variable {pairing} in
/-- Rules applied in paired scenes make paired runs. -/
theorem Scenes.apply {scene other : Scene} (h : pairing.Scenes scene other) (entry : Entry)
    (args : List Form) :
    pairing.holds (entry.apply scene.means args) (entry.apply other.means args) :=
  pairing.holds_of_relating (h.agrees.apply entry fun _ _ _ _ _ => rfl)

/-! ## Expansion -/

theorem settle (settings : Settings) {scene other : Scene} (h : pairing.Scenes scene other)
    (depth depth' : Nat)
    (hrecord : ∀ id, pairing.holds (Run.note (·.record settings.tracing id depth))
      (Run.note (·.record settings.tracing id depth')))
    (left : Nat) (form : Form) :
    pairing.holds (settings.settle scene depth left form)
      (settings.settle other depth' left form) := by
  induction left generalizing form with
  | zero =>
      unfold Settings.settle
      split
      · exact pairing.pure _
      · exact pairing.throw _
  | succ left ih =>
      unfold Settings.settle
      split
      · exact pairing.pure _
      · next entry args hcall =>
          refine pairing.bind (h.apply entry args) fun replacement => ?_
          exact pairing.bind (hrecord entry.id) fun _ => ih replacement

/-- Expansion in frames that agree is paired, provided what is noted on the way
is. The levels above may differ, as far as the notes allow. -/
theorem expand (settings : Settings) {room : Nat} (depth depth' : Nat)
    (hreach : ∀ level, 0 < level → level ≤ room →
      pairing.holds (Run.note (·.reach (depth + level))) (Run.note (·.reach (depth' + level))))
    (hrecord : ∀ id level, 0 < level → level ≤ room →
      pairing.holds (Run.note (·.record settings.tracing id (depth + level)))
        (Run.note (·.record settings.tracing id (depth' + level))))
    {frame other : Frame} (hframe : frame.Agrees other) (form : Form) :
    pairing.holds (settings.expand room depth frame form)
      (settings.expand room depth' other form) := by
  induction room generalizing depth depth' frame other form with
  | zero => exact pairing.throw _
  | succ room ih =>
      have hscenes : pairing.Scenes (settings.inside room (depth + 1) frame)
          (settings.inside room (depth' + 1) other) := by
        refine ⟨rfl, hframe, fun hinner inner => ih _ _ ?_ ?_ hinner inner⟩
        · intro level hpos hle
          have := hreach (level + 1) (by omega) (by omega)
          rwa [show depth + (level + 1) = depth + 1 + level by omega,
            show depth' + (level + 1) = depth' + 1 + level by omega] at this
        · intro id level hpos hle
          have := hrecord id (level + 1) (by omega) (by omega)
          rwa [show depth + (level + 1) = depth + 1 + level by omega,
            show depth' + (level + 1) = depth' + 1 + level by omega] at this
      rw [Settings.expand_succ, Settings.expand_succ]
      refine pairing.bind (hreach 1 (by omega) (by omega)) fun _ => ?_
      refine pairing.bind (pairing.settle settings hscenes _ _ ?_ _ form) hscenes.descend
      exact fun id => hrecord id 1 (by omega) (by omega)

/-! ## Three pairings

Equal runs, runs with equal results, and, for a single run, a relation between
the progress before and after that every step keeps. -/

/-- The two runs are the same. -/
def equal : Pairing where
  holds := Eq
  pure _ := rfl
  throw _ := rfl
  guard := rfl
  bind := by
    intro α β first second next other hfirst hnext
    rw [hfirst, funext hnext]

/-- The two runs end alike, whatever progress each starts from. -/
def sameResult : Pairing where
  holds first second := ∀ before other, (first.perform before).1 = (second.perform other).1
  pure _ _ _ := rfl
  throw _ _ _ := rfl
  guard _ _ := rfl
  bind := by
    intro α β first second next other hfirst hnext before before'
    have hresult := hfirst before before'
    rw [Run.perform_bind, Run.perform_bind]
    rcases hone : first.perform before with ⟨result, after⟩
    rcases htwo : second.perform before' with ⟨result', after'⟩
    rw [hone, htwo] at hresult
    dsimp only at hresult
    subst hresult
    cases result with
    | ok value => exact hnext value after after'
    | error fault => rfl

/-- The first run takes its progress along a relation. -/
def along (relates : Progress → Progress → Prop) (refl : ∀ progress, relates progress progress)
    (trans : ∀ {before between after}, relates before between → relates between after →
      relates before after)
    (guard : ∀ progress : Progress, relates progress progress.guard) : Pairing where
  holds run _ := ∀ progress, relates progress (run.perform progress).2
  pure _ := refl
  throw _ := refl
  guard := guard
  bind := by
    intro α β first second next other hfirst hnext progress
    have hone := hfirst progress
    rw [Run.perform_bind]
    split
    · next value between hrun =>
        rw [hrun] at hone
        exact trans hone (hnext value between)
    · next fault between hrun =>
        rw [hrun] at hone
        exact hone

end Pairing

namespace Settings

/-- Of its context expansion sees only what each key is bound to. -/
theorem expand_congr (settings : Settings) (room depth : Nat) {frame other : Frame}
    (h : frame.Agrees other) (form : Form) :
    settings.expand room depth frame form = settings.expand room depth other form :=
  Pairing.equal.expand settings depth depth (fun _ _ _ => rfl) (fun _ _ _ _ => rfl) h form

/-- What expansion ends in depends neither on what the run did before nor on the
level it starts at. -/
theorem expand_result (settings : Settings) (room depth depth' : Nat) (frame : Frame)
    (form : Form) (before other : Progress) :
    ((settings.expand room depth frame form).perform before).1 =
      ((settings.expand room depth' frame form).perform other).1 :=
  Pairing.sameResult.expand settings depth depth' (fun _ _ _ _ _ => rfl) (fun _ _ _ _ _ _ => rfl)
    (Frame.Agrees.refl frame) form before other

end Settings

end Rulebook
