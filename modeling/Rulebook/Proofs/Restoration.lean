import Rulebook.Expander
import Rulebook.Proofs.Lockstep

/-!
# What an expander puts back

The level and the context of an expander change all the time while it works. A run
is told both from outside and has no way to change them. The two come to the same
all the same, for whenever an expander has changed its level or its context it puts
back what was there, also after work that failed. So whatever comes next finds the
expander where the run takes it to be, and in this way the expander keeps up with
the run, rule by rule and level by level.

Of an expander then nothing but the progress is changed by what it does, however
that ends. And fuel is bookkeeping: how far expansion goes is decided by the levels
left, and any fuel that covers them gives the same.
-/

namespace Rulebook

namespace Expander

/-- What a run sees that the expander is to keep up with. -/
def scene (expander : Expander) : Scene :=
  expander.settings.inside (expander.settings.limits.depth - expander.depth) expander.depth
    expander.frame

/-- How a run ends that is started where the expander is, and the expander with the
progress that the run made. -/
def carry {α : Type} (expander : Expander) (run : Run α) : Except Fault α × Expander :=
  ((run.perform expander.progress).1,
    { expander with progress := (run.perform expander.progress).2 })

end Expander

namespace Work

variable {α β : Type}

@[simp]
theorem perform_pure (value : α) (expander : Expander) :
    (pure value : Work α).perform expander = (.ok value, expander) := rfl

@[simp]
theorem perform_throw (fault : Fault) (expander : Expander) :
    (throw fault : Work α).perform expander = (.error fault, expander) := rfl

@[simp]
theorem perform_get (expander : Expander) :
    (get : Work Expander).perform expander = (.ok expander, expander) := rfl

@[simp]
theorem perform_modify (change : Expander → Expander) (expander : Expander) :
    (modify change : Work PUnit).perform expander = (.ok ⟨⟩, change expander) := rfl

@[simp]
theorem perform_settled (outcome : Except Fault α) (expander : Expander) :
    (Means.settled outcome : Work α).perform expander = (outcome, expander) := by
  cases outcome <;> rfl

theorem perform_bind (work : Work α) (next : α → Work β) (expander : Expander) :
    (work >>= next).perform expander =
      match work.perform expander with
      | (.ok value, after) => (next value).perform after
      | (.error fault, after) => (.error fault, after) := by
  rw [perform, run_bind, perform]
  rcases (ExceptT.run work).run expander with ⟨_ | _, _⟩ <;> rfl

theorem perform_tryCatch (work : Work α) (handle : Fault → Work α) (expander : Expander) :
    (tryCatch work handle).perform expander =
      match work.perform expander with
      | (.ok value, after) => (.ok value, after)
      | (.error fault, after) => (handle fault).perform after := by
  simp only [perform, ExceptT.run, StateT.run]
  rcases h : work expander with ⟨_ | _, _⟩
  · simp [tryCatch, tryCatchThe, MonadExceptOf.tryCatch, ExceptT.tryCatch, ExceptT.mk, bind,
      StateT.bind, h]
  · simp [tryCatch, tryCatchThe, MonadExceptOf.tryCatch, ExceptT.tryCatch, ExceptT.mk, bind,
      StateT.bind, h]
    rfl

/-- Work that is attempted is done as far as it goes, and does not fail. -/
@[simp]
theorem perform_attempt (work : Work α) (expander : Expander) :
    (attempt work).perform expander =
      (.ok (work.perform expander).1, (work.perform expander).2) := by
  rw [attempt, perform_tryCatch, map_eq_pure_bind, perform_bind]
  rcases work.perform expander with ⟨_ | _, _⟩ <;> rfl

/-- The context is put back, however the work ended. -/
theorem perform_withFrame (frame : Frame) (work : Work α) (expander : Expander) :
    (withFrame frame work).perform expander =
      ((work.perform { expander with frame }).1,
        { (work.perform { expander with frame }).2 with frame := expander.frame }) := by
  simp [withFrame, perform_bind]

/-- The level is put back, however expansion ended. -/
theorem perform_expand_succ (fuel : Nat) (form : Form) (expander : Expander) :
    (expand (fuel + 1) form).perform expander =
      if expander.settings.limits.depth ≤ expander.depth then
        (.error (.nestedTooDeep expander.settings.limits.depth), expander)
      else
        let inside : Work Form := do
          let settled ← settle (means expander.settings.registry (expand fuel))
            expander.settings.limits.replacements form
          descend (expand fuel) settled
        ((inside.perform expander.goDown).1, (inside.perform expander.goDown).2.comeUp) := by
  rw [expand, perform_bind, perform_get]
  dsimp only
  split
  · rfl
  · simp [perform_bind]

/-! ## Work that does what a run does -/

/-- Work of an expander at some level and in some context comes to what the run
comes to, and changes nothing but the progress. -/
def restoring (settings : Settings) (frame : Frame) (depth : Nat) : Relating Work Run where
  holds right work run := ∀ progress,
    Outcomes Eq right (work.perform ⟨settings, frame, depth, progress⟩).1
        (run.perform progress).1 ∧
      (work.perform ⟨settings, frame, depth, progress⟩).2 =
        ⟨settings, frame, depth, (run.perform progress).2⟩
  faults := Eq
  pure hvalue _ := ⟨.ok hvalue, rfl⟩
  throw hfault _ := ⟨.error hfault, rfl⟩
  bind := by
    intro α β γ δ between right first second next other hfirst hnext progress
    have hone := hfirst progress
    rw [perform_bind, Run.perform_bind]
    revert hone
    generalize first.perform ⟨settings, frame, depth, progress⟩ = one,
      second.perform progress = two
    obtain ⟨result, after⟩ := one
    obtain ⟨result', between⟩ := two
    rintro ⟨hvalue | hfault, rfl⟩
    · exact hnext _ _ hvalue between
    · exact ⟨.error hfault, rfl⟩

section

variable {settings : Settings} {frame : Frame} {depth : Nat} {right : α → β → Prop}

/-- Work goes on from the level and the context that it was started with. -/
theorem restoring_get {next : Expander → Work α} {run : Run β}
    (h : ∀ progress,
      (restoring settings frame depth).holds right (next ⟨settings, frame, depth, progress⟩) run) :
    (restoring settings frame depth).holds right (get >>= next) run := by
  intro progress
  rw [perform_bind, perform_get]
  exact h progress progress

theorem restoring_withFrame {inner : Frame} {work : Work α} {run : Run β}
    (h : (restoring settings inner depth).holds right work run) :
    (restoring settings frame depth).holds right (withFrame inner work) run := by
  intro progress
  obtain ⟨hresult, hafter⟩ := h progress
  rw [perform_withFrame]
  refine ⟨hresult, ?_⟩
  rw [hafter]

theorem restoring_deduce (settings : Settings) (frame : Frame) (depth : Nat) (key : Key) :
    (restoring settings frame depth).holds Eq (deduce key)
      (Means.settled (frame.deduce key)) :=
  restoring_get fun _ => Relating.settled _ (outcomes_eq.mpr rfl)

end

theorem means_registry (registry : Registry) (expand : Form → Work Form) :
    (means registry expand).registry = registry := rfl

/-- Expansion that comes to what runs come to, in every context. -/
def KeepsUp (settings : Settings) (depth : Nat) (expand : Form → Work Form)
    (runs : Frame → Form → Run Form) : Prop :=
  ∀ frame form, (restoring settings frame depth).holds Eq (expand form) (runs frame form)

namespace KeepsUp

variable {settings : Settings} {depth : Nat} {expand : Form → Work Form}
  {runs : Frame → Form → Run Form}

theorem expandAll (h : KeepsUp settings depth expand runs) (frame : Frame) (forms : List Form) :
    (restoring settings frame depth).holds Eq (forms.mapM expand) (forms.mapM (runs frame)) :=
  Relating.mapM_same _ fun form _ => h frame form

theorem expandFor (h : KeepsUp settings depth expand runs) (frame : Frame) (scope : Scope)
    (body : List Form) (target : Form) :
    (restoring settings frame depth).holds Eq (Work.expandFor expand scope body target)
      (Scene.expandFor ⟨settings.registry, frame, runs⟩ scope body target) := by
  refine Relating.bindEq _ (Relating.settled _ (outcomes_eq.mpr rfl)) fun bindings => ?_
  refine restoring_get fun _ => restoring_withFrame ?_
  exact h.expandAll (frame.bindAll bindings) body

/-- What rules are handed by an expander answers as what they are handed in a run. -/
theorem agrees (h : KeepsUp settings depth expand runs) (frame : Frame) :
    (restoring settings frame depth).Agrees (means settings.registry expand)
      (Scene.means ⟨settings.registry, frame, runs⟩) where
  registry := rfl
  deduce key := restoring_deduce settings frame depth key
  exit value := by
    refine Relating.bindEq _ (restoring_deduce settings frame depth .quit) fun token => ?_
    refine Relating.bindEq _ ?_ fun _ => Relating.pure _ rfl
    exact fun progress => ⟨.ok rfl, rfl⟩
  expandAll := h.expandAll frame
  enter scope targets body :=
    Relating.bindEq _ (Relating.mapM_same _ fun target _ => h.expandFor frame scope body target)
      fun _ => Relating.pure _ rfl
  fault _ _ := rfl

/-- A form is replaced as often, and each replacement is recorded with the same level. -/
theorem settle (h : KeepsUp settings depth expand runs) (frame : Frame) (left : Nat)
    (form : Form) :
    (restoring settings frame depth).holds Eq
      (Work.settle (means settings.registry expand) left form)
      (settings.settle ⟨settings.registry, frame, runs⟩ depth left form) := by
  induction left generalizing form with
  | zero =>
      unfold Work.settle Settings.settle
      rw [means_registry]
      cases settings.registry.invocation? form with
      | none => exact Relating.pure _ rfl
      | some call =>
          refine restoring_get fun _ => ?_
          exact Relating.throw _ rfl
  | succ left ih =>
      unfold Work.settle Settings.settle
      rw [means_registry]
      cases settings.registry.invocation? form with
      | none => exact Relating.pure _ rfl
      | some call =>
          refine Relating.bindEq _ ((h.agrees frame).apply call.1 fun _ _ _ _ _ => rfl) ?_
          intro replacement
          refine Relating.bindEq _ ?_ fun _ => ih replacement
          exact fun progress => ⟨.ok rfl, rfl⟩

theorem descend (h : KeepsUp settings depth expand runs) (frame : Frame) (form : Form) :
    (restoring settings frame depth).holds Eq (Work.descend expand form)
      (Scene.descend ⟨settings.registry, frame, runs⟩ form) := by
  cases form with
  | list items =>
      rw [Work.descend, Scene.descend]
      split
      · exact Relating.pure _ rfl
      · exact Relating.bindEq _ (h.expandAll frame items) fun _ => Relating.pure _ rfl
  | function inner =>
      cases inner with
      | list items => exact Relating.bindEq _ (h frame (.list items)) fun _ => Relating.pure _ rfl
      | _ => exact Relating.pure _ rfl
  | _ => exact Relating.pure _ rfl

end KeepsUp

/-- An expander keeps up with the run that has as many levels left, or as much fuel
if that is less. -/
theorem expand_keepsUp (settings : Settings) (fuel depth : Nat) :
    KeepsUp settings depth (expand fuel)
      (settings.expand (min fuel (settings.limits.depth - depth)) depth) := by
  induction fuel generalizing depth with
  | zero =>
      intro frame form
      rw [Nat.zero_min, expand, Settings.expand]
      refine restoring_get fun _ => ?_
      exact Relating.throw _ rfl
  | succ fuel ih =>
      intro frame form progress
      rw [perform_expand_succ]
      dsimp only
      split
      · next hdeep =>
          rw [Nat.sub_eq_zero_of_le hdeep, Nat.min_zero]
          exact ⟨.error rfl, rfl⟩
      · next hlow =>
          have hroom : min (fuel + 1) (settings.limits.depth - depth) =
              min fuel (settings.limits.depth - (depth + 1)) + 1 := by omega
          have hinside : (restoring settings frame (depth + 1)).holds Eq
              (do
                let settled ← settle (means settings.registry (expand fuel))
                  settings.limits.replacements form
                descend (expand fuel) settled)
              (do
                let settled ← settings.settle
                  (settings.inside (min fuel (settings.limits.depth - (depth + 1))) (depth + 1)
                    frame) (depth + 1) settings.limits.replacements form
                (settings.inside (min fuel (settings.limits.depth - (depth + 1))) (depth + 1)
                  frame).descend settled) :=
            Relating.bindEq _ ((ih (depth + 1)).settle frame _ form)
              ((ih (depth + 1)).descend frame)
          obtain ⟨hresult, hafter⟩ := hinside (progress.reach (depth + 1))
          rw [hroom, Settings.expand_succ, Run.perform_bind_of_ok (Run.perform_note _ _)]
          refine ⟨hresult, ?_⟩
          rw [Expander.goDown, hafter]
          rfl

theorem perform_eq_carry {expander : Expander} {work : Work α} {run : Run α}
    (h : (restoring expander.settings expander.frame expander.depth).holds Eq work run) :
    work.perform expander = expander.carry run := by
  obtain ⟨hresult, hafter⟩ := h expander.progress
  exact Prod.ext (outcomes_eq.mp hresult) hafter

/-- However expansion ends, with fuel that covers the levels left it ends as the run
does, and the level and the context are what they were. -/
theorem perform_expand (expander : Expander) {fuel : Nat}
    (h : expander.settings.limits.depth - expander.depth ≤ fuel) (form : Form) :
    (expand fuel form).perform expander =
      expander.carry (expander.scene.expandIn expander.frame form) := by
  have hkeeps := expand_keepsUp expander.settings fuel expander.depth expander.frame form
  rw [Nat.min_eq_right h] at hkeeps
  exact perform_eq_carry hkeeps

end Work

namespace Expander

theorem keepsUp (expander : Expander) :
    Work.KeepsUp expander.settings expander.depth (Work.expand expander.fuel)
      expander.scene.expandIn := by
  have hkeeps := Work.expand_keepsUp expander.settings expander.fuel expander.depth
  rwa [fuel, Nat.min_eq_right (Nat.sub_le _ _)] at hkeeps

/-- Whatever an expander does through its means it does as a run does it through the
means of its scene. -/
theorem agrees (expander : Expander) :
    (Work.restoring expander.settings expander.frame expander.depth).Agrees expander.means
      expander.scene.means :=
  expander.keepsUp.agrees expander.frame

theorem perform_map_eq_carry (expander : Expander) {α β : Type} {work : Work α} {run : Run α}
    (h : (Work.restoring expander.settings expander.frame expander.depth).holds Eq work run)
    (f : α → β) : (f <$> work).perform expander = expander.carry (f <$> run) := by
  rw [map_eq_pure_bind, map_eq_pure_bind]
  exact Work.perform_eq_carry (Relating.bindEq _ h fun _ => Relating.pure _ rfl)

end Expander

/-! ## Requests are served by runs -/

namespace Request

variable (expander : Expander)

theorem serve_expand (form : Form) :
    (Request.expand form).serve expander =
      expander.carry (.form <$> expander.scene.expandIn expander.scene.frame form) :=
  expander.perform_map_eq_carry (expander.keepsUp _ form) _

theorem serve_expandAll (forms : List Form) :
    (Request.expandAll forms).serve expander =
      expander.carry (.forms <$> expander.scene.expandAll forms) :=
  expander.perform_map_eq_carry (expander.agrees.expandAll forms) _

theorem serve_expandBody (forms : List Form) :
    (Request.expandBody forms).serve expander =
      expander.carry (.form <$> expander.scene.expandBody forms) :=
  expander.perform_map_eq_carry (expander.agrees.expandBody forms) _

theorem serve_enter (scope : Scope) (targets : Form) (body : List Form) :
    (Request.enter scope targets body).serve expander =
      expander.carry (.form <$> expander.scene.enter scope targets body) :=
  expander.perform_map_eq_carry (expander.agrees.enter scope targets body) _

theorem serve_deduce (key : Key) :
    (Request.deduce key).serve expander =
      expander.carry (.form <$> expander.scene.deduce key) :=
  expander.perform_map_eq_carry (expander.agrees.deduce key) _

theorem serve_exit (value : Form) :
    (Request.exit value).serve expander =
      expander.carry (.form <$> expander.scene.exit value) :=
  expander.perform_map_eq_carry (expander.agrees.exit value) _

theorem serve_apply {id : String} {entry : Entry}
    (h : expander.settings.registry.find? id = some entry) (args : List Form) :
    (Request.apply id args).serve expander =
      expander.carry (.form <$> entry.apply expander.scene.means args) := by
  rw [serve, h]
  exact expander.perform_map_eq_carry (expander.agrees.apply entry fun _ _ _ _ _ => rfl) _

end Request

end Rulebook
