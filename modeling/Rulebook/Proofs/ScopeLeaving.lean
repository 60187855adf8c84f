import Rulebook.Proofs.Limits
import Rulebook.Proofs.ScopeHiding

/-!
# What leaving a scope costs

A scope is replaced by what its body came to, target after target, and the
replacement is looked at once more in the outer context. If it is settled there
is nothing left to do. But is there room for the second look? The replacement
stands one level above the forms it is made of, and the levels that going over
it takes have all been entered before: a run notes every level it enters, and
what comes out of expansion is never taller than the levels its own expansion
went down (`walk_le_deepest`). So the second look needs no room that the first
did not have and notes no level that was not noted. What remains of the scope in
the progress is its one replacement.

A scope that fails does so at the first target that is refused or whose body
fails. Nothing after that is looked at.
-/

namespace Rulebook

/-- What every turn establishes at the levels noted so far holds at the end. -/
theorem Run.noted_of_mapM {α β : Type} {turn : α → Run β} (holds : Nat → β → Prop)
    (hmono : ∀ {low high : Nat} {result : β}, low ≤ high → holds low result → holds high result)
    (hdeepens : ∀ item, Pairing.deepening.holds (turn item) (turn item))
    (hturn : ∀ item {before result after}, (turn item).perform before = (.ok result, after) →
      holds after.deepest result)
    {items : List α} {before after : Progress} {results : List β}
    (h : (items.mapM turn).perform before = (.ok results, after)) :
    ∀ result ∈ results, holds after.deepest result := by
  induction items generalizing before results with
  | nil =>
      cases h
      exact fun _ hnone => absurd hnone List.not_mem_nil
  | cons item items ih =>
      rw [List.mapM_cons] at h
      obtain ⟨first, between, hfirst, h⟩ := Run.perform_bind_ok h
      obtain ⟨rest, later, hrest, h⟩ := Run.perform_bind_ok h
      cases h
      have hlater : between.deepest ≤ after.deepest := by
        have hall : Pairing.deepening.holds (items.mapM turn) (items.mapM turn) :=
          Pairing.deepening.mapM fun item _ => hdeepens item
        have hlevels := hall between
        rwa [hrest] at hlevels
      exact List.forall_mem_cons.mpr ⟨hmono hlater (hturn item hfirst), ih hrest⟩

namespace Settings

/-- The result of expansion is no taller than the levels that were entered: the
same run can be made with no room to spare, and there the room bounds it. -/
theorem walk_le_deepest {settings : Settings} {room depth : Nat} {frame : Frame}
    {form out : Form} {before after : Progress}
    (h : (settings.expand room depth frame form).perform before = (.ok out, after)) :
    depth + out.walk ≤ after.deepest := by
  cases room with
  | zero => cases h
  | succ room =>
      have hentered := settings.expand_enters room depth frame form before
      have hdeepens := settings.expand_deepens (room + 1) depth frame form before
      rw [h] at hentered hdeepens
      dsimp only at hentered hdeepens
      let tight : Settings :=
        { settings with limits := ⟨after.deepest, settings.limits.replacements⟩ }
      have hroom : depth + (after.deepest - depth) = after.deepest := by omega
      have hfollows : Run.Follows after.deepest (settings.expand (room + 1) depth frame form)
          (tight.expand (after.deepest - depth) depth frame form) :=
        settings.expand_follows tight rfl rfl (Nat.le_refl _) hroom (.refl frame) form
      have hrun := hfollows.within hdeepens h (Nat.le_refl _)
      have houtcome : tight.outcome (after.deepest - depth) frame form = .ok out := by
        rw [← tight.expand_yields _ depth frame form before, hrun]
      have hwalk := walk_le_of_outcome houtcome
      omega

theorem expandAll_deepens (settings : Settings) (room depth : Nat) (frame : Frame)
    (forms : List Form) :
    Pairing.deepening.holds ((settings.inside room depth frame).expandAll forms)
      ((settings.inside room depth frame).expandAll forms) :=
  Pairing.deepening.mapM fun form _ => settings.expand_deepens room depth frame form

/-- The results of a body for all targets are no taller than the levels that
were entered. -/
theorem walk_le_of_entered {settings : Settings} {room depth : Nat} {frame : Frame}
    {scope : Scope} {body : List Form} {names : List String} {results : List (List Form)}
    {before after : Progress}
    (h : (names.mapM fun name =>
        (settings.inside room depth (frame.within scope name)).expandAll body).perform before =
      (.ok results, after)) :
    ∀ result ∈ results.flatten, result.walk ≤ room ∧ depth + result.walk ≤ after.deepest := by
  have hall : ∀ forms ∈ results, ∀ form ∈ forms,
      form.walk ≤ room ∧ depth + form.walk ≤ after.deepest := by
    refine Run.noted_of_mapM
      (fun deepest forms => ∀ form ∈ forms, form.walk ≤ room ∧ depth + form.walk ≤ deepest)
      (fun hle hforms form hform => ?_) (fun name => settings.expandAll_deepens room depth _ body)
      (fun name {_ _ _} hname => ?_) h
    · obtain ⟨hroom, hdeep⟩ := hforms form hform
      exact ⟨hroom, Nat.le_trans hdeep hle⟩
    · refine Run.noted_of_mapM
        (fun deepest form => form.walk ≤ room ∧ depth + form.walk ≤ deepest)
        (fun hle hform => ⟨hform.1, Nat.le_trans hform.2 hle⟩)
        (settings.expand_deepens room depth (frame.within scope name))
        (fun form {before result _} hform => ⟨?_, walk_le_deepest hform⟩) hname
      have houtcome : settings.outcome room (frame.within scope name) form = .ok result := by
        rw [← settings.expand_yields room depth (frame.within scope name) form before]
        exact congrArg Prod.fst hform
      exact walk_le_of_outcome houtcome
  intro result hresult
  obtain ⟨forms, hforms, hform⟩ := List.mem_flatten.mp hresult
  exact hall forms hforms result hform

/-- The forms in sequence are no taller than the form that they replace. -/
theorem walk_sequence_of_entered {settings : Settings} {room depth : Nat} {frame : Frame}
    {scope : Scope} {body : List Form} {names : List String} {results : List (List Form)}
    {before after : Progress}
    (h : (names.mapM fun name => (settings.inside room (depth + 1)
        (frame.within scope name)).expandAll body).perform (before.reach (depth + 1)) =
      (.ok results, after)) :
    (Form.sequence results.flatten).walk ≤ room + 1 ∧
      depth + (Form.sequence results.flatten).walk ≤ after.deepest := by
  have heach := walk_le_of_entered h
  have hentered : depth + 1 ≤ after.deepest := by
    have hall : Pairing.deepening.holds
        (names.mapM fun name => (settings.inside room (depth + 1)
          (frame.within scope name)).expandAll body) _ :=
      Pairing.deepening.mapM fun name _ => settings.expandAll_deepens room (depth + 1) _ body
    have hlevels := hall (before.reach (depth + 1))
    rw [h] at hlevels
    exact Nat.le_trans (Nat.le_max_right _ _) hlevels
  have hroom : Form.walkOf (Form.sequence results.flatten).parts ≤ room :=
    Form.walkOf_parts_sequence fun result hresult => (heach result hresult).1
  have hdeep : Form.walkOf (Form.sequence results.flatten).parts ≤ after.deepest - (depth + 1) := by
    refine Form.walkOf_parts_sequence fun result hresult => ?_
    have hresult := (heach result hresult).2
    omega
  rw [Form.walk_eq]
  omega

/-- Going down into a settled form whose levels are all noted does nothing. -/
theorem descend_of_noted {settings : Settings} {room depth : Nat} {form : Form}
    (h : settings.registry.Settled form) (hroom : form.walk ≤ room + 1) {progress : Progress}
    (hdeep : depth + form.walk ≤ progress.deepest) (frame : Frame) :
    ((settings.inside room (depth + 1) frame).descend form).perform progress =
      (.ok form, progress) := by
  have hwhole := expand_of_settled h hroom depth frame progress
  have hentered : depth + 1 ≤ progress.deepest := by
    rw [Form.walk_eq] at hdeep
    omega
  rw [expand_succ, settle_of_idle (Registry.settled_iff.mp h).1, pure_bind,
    Run.perform_bind_of_ok (Run.perform_note _ _)] at hwhole
  rwa [Progress.reach_of_le hentered, Progress.reach_of_le hdeep] at hwhole

/-! ## One scope and all its targets -/

/-- Symbols are all accepted, so their bodies are expanded one after the other. -/
theorem enter_symbols (settings : Settings) (room depth : Nat) (frame : Frame) (scope : Scope)
    {targets : Form} {names : List String} (h : targets.elements = names.map Form.symbol)
    (body : List Form) :
    (settings.inside room depth frame).enter scope targets body =
      (do
        let results ← names.mapM fun name =>
          (settings.inside room depth (frame.within scope name)).expandAll body
        return .sequence results.flatten) := by
  rw [Scene.enter, h, List.mapM_map]
  rfl

section Scopes

variable {settings : Settings} {scope : Scope}
  (hscope : settings.registry.find? scope.ruleName = Catalogue.registry.find? scope.ruleName)
  (hpositive : 0 < settings.limits.replacements)

include hscope hpositive

/-- A scope is expanded by entering it, noting the replacement, and looking at
what was made. -/
theorem expand_of_scope (room depth : Nat) (frame : Frame) (targets : Form) (body : List Form) :
    ∃ left, settings.expand (room + 1) depth frame (.call scope.ruleName (targets :: body)) =
      (do
        Run.note (·.reach (depth + 1))
        let made ← (settings.inside room (depth + 1) frame).enter scope targets body
        Run.note (·.record settings.tracing scope.ruleName (depth + 1))
        let rested ← settings.settle (settings.inside room (depth + 1) frame) (depth + 1) left made
        (settings.inside room (depth + 1) frame).descend rested) := by
  obtain ⟨left, hleft⟩ := Nat.exists_eq_succ_of_ne_zero (Nat.ne_of_gt hpositive)
  obtain ⟨entry, hfind, hid, happly⟩ := Catalogue.find?_scope scope
  have hcall := Registry.invocation?_of_find? (hscope.trans hfind) (targets :: body)
  refine ⟨left, ?_⟩
  rw [expand_succ, hleft, settle, hcall]
  dsimp only
  rw [hid, happly]
  simp only [bind_assoc]

end Scopes

/-- What a body comes to for one target. -/
def bodyFor (settings : Settings) (room : Nat) (frame : Frame) (scope : Scope)
    (body : List Form) (target : Form) : Except Fault (List Form) := do
  let bindings ← scope.bindings target
  body.mapM (settings.outcome room (frame.bindAll bindings))

/-- `Fails target fault`: entering the scope of `target` ends in `fault`. The
target is refused, or else some form of the body is the first to fail. -/
inductive Fails (settings : Settings) (room : Nat) (frame : Frame) (scope : Scope)
    (body : List Form) : Form → Fault → Prop
  | target {target : Form} (unnamed : target.symbol? = none) :
      Fails settings room frame scope body target (Fault.expectedSymbol scope.ruleName target)
  | form {name : String} {done later : List Form} {form : Form} {fault : Fault}
      (split : body = done ++ form :: later)
      (passed : ∀ one ∈ done,
        ∃ result, settings.outcome room (frame.within scope name) one = .ok result)
      (failed : settings.outcome room (frame.within scope name) form = .error fault) :
      Fails settings room frame scope body (.symbol name) fault

theorem bodyFor_eq_error {settings : Settings} {room : Nat} {frame : Frame} {scope : Scope}
    {body : List Form} {target : Form} {fault : Fault} :
    settings.bodyFor room frame scope body target = .error fault ↔
      settings.Fails room frame scope body target fault := by
  constructor
  · intro h
    cases target with
    | symbol name =>
        obtain ⟨done, form, later, hsplit, hpassed, hfailed⟩ := mapM_eq_error.mp h
        exact .form hsplit hpassed hfailed
    | _ =>
        cases h
        exact .target rfl
  · rintro (⟨hunnamed⟩ | ⟨hsplit, hpassed, hfailed⟩)
    · cases target with
      | symbol name => cases hunnamed
      | _ => rfl
    · exact mapM_eq_error.mpr ⟨_, _, _, hsplit, hpassed, hfailed⟩

theorem enter_yields (settings : Settings) (room depth : Nat) (frame : Frame) (scope : Scope)
    (targets : Form) (body : List Form) :
    ((settings.inside room depth frame).enter scope targets body).Yields
      (targets.elements.mapM (settings.bodyFor room frame scope body) >>= fun results =>
        .ok (.sequence results.flatten)) := by
  refine (Run.Yields.mapM (fun target => ?_) _).bind fun results => .pure _
  refine Run.Yields.bind (fun progress => ?_) fun bindings =>
    .mapM (settings.expand_yields room depth _) body
  exact congrArg Prod.fst (Run.perform_settled _ progress)

/-- A target that is refused, or a form that fails for a target, makes the scope
fail. -/
theorem exists_error_of_refused {settings : Settings} {room : Nat} {frame : Frame}
    {scope : Scope} {body targets : List Form}
    (h : ∃ target ∈ targets, target.symbol? = none ∨
      ∃ name, target = .symbol name ∧ ∃ form ∈ body, ∃ fault,
        settings.outcome room (frame.within scope name) form = .error fault) :
    ∃ fault, targets.mapM (settings.bodyFor room frame scope body) = .error fault := by
  obtain ⟨target, htarget, hrefused⟩ := h
  cases hall : targets.mapM (settings.bodyFor room frame scope body) with
  | error fault => exact ⟨fault, rfl⟩
  | ok results =>
      obtain ⟨forms, -, hforms⟩ := exists_mem_of_forall₂ (mapM_eq_ok.mp hall) htarget
      rcases hrefused with hunnamed | ⟨name, rfl, form, hform, fault, hfailed⟩
      · have hfault : settings.bodyFor room frame scope body target = .error _ :=
          bodyFor_eq_error.mpr (.target hunnamed)
        cases hforms.symm.trans hfault
      · obtain ⟨result, -, hresult⟩ := exists_mem_of_forall₂ (mapM_eq_ok.mp hforms) hform
        cases hresult.symm.trans hfailed

end Settings

/-- A scope rule and its targets. Where every target is a symbol and the bodies
came to settled forms, the scope comes to these forms in sequence, and all that
the run notes beyond what it noted in the bodies is the one replacement of the
scope. In particular the second look reaches no further down and replaces
nothing. Where some target is refused or some form fails, the scope ends in the
fault of the first target that does. -/
theorem expand_scope_targets {settings : Settings} {scope : Scope}
    (hscope : settings.registry.find? scope.ruleName = Catalogue.registry.find? scope.ruleName)
    (hprogn : settings.registry.contains "progn" = false)
    (hpositive : 0 < settings.limits.replacements) (room depth : Nat) (frame : Frame)
    (targets : Form) (body : List Form) (before : Progress) :
    (∀ (names : List String) (results : List (List Form)) (between : Progress),
      targets.elements = names.map Form.symbol →
      (names.mapM fun name =>
        (settings.inside room (depth + 1) (frame.within scope name)).expandAll body).perform
          (before.reach (depth + 1)) = (.ok results, between) →
      (∀ result ∈ results.flatten, settings.registry.Settled result) →
      (settings.expand (room + 1) depth frame (.call scope.ruleName (targets :: body))).perform
          before =
        (.ok (.sequence results.flatten),
          between.record settings.tracing scope.ruleName (depth + 1))) ∧
    ((∃ target ∈ targets.elements, target.symbol? = none ∨
        ∃ name, target = .symbol name ∧ ∃ form ∈ body, ∃ fault,
          settings.outcome room (frame.within scope name) form = .error fault) →
      ∃ done target later fault after, targets.elements = done ++ target :: later ∧
        (∀ one ∈ done, ∀ other, ¬ settings.Fails room frame scope body one other) ∧
        settings.Fails room frame scope body target fault ∧
        (settings.expand (room + 1) depth frame (.call scope.ruleName (targets :: body))).perform
          before = (.error fault, after)) := by
  obtain ⟨left, hexpand⟩ :=
    Settings.expand_of_scope hscope hpositive room depth frame targets body
  rw [hexpand, Run.perform_bind_of_ok (Run.perform_note _ _)]
  constructor
  · intro names results between hnames hrun hsettled
    have hdone : settings.registry.Settled (.sequence results.flatten) :=
      (Registry.settled_sequence hprogn).mpr hsettled
    have hmade : ((settings.inside room (depth + 1) frame).enter scope targets body).perform
        (before.reach (depth + 1)) = (.ok (.sequence results.flatten), between) := by
      rw [settings.enter_symbols _ _ frame scope hnames, Run.perform_bind_of_ok hrun]
      rfl
    rw [Run.perform_bind_of_ok hmade, Run.perform_bind_of_ok (Run.perform_note _ _),
      Settings.settle_of_idle (Registry.settled_iff.mp hdone).1, pure_bind]
    obtain ⟨hroom, hdeep⟩ := Settings.walk_sequence_of_entered hrun
    have hnoted : depth + (Form.sequence results.flatten).walk ≤
        (between.record settings.tracing scope.ruleName (depth + 1)).deepest := hdeep
    exact Settings.descend_of_noted hdone hroom hnoted frame
  · intro hrefused
    obtain ⟨fault, hfault⟩ := Settings.exists_error_of_refused hrefused
    obtain ⟨done, target, later, hsplit, hpassed, hfailed⟩ := mapM_eq_error.mp hfault
    have hentered := settings.enter_yields room (depth + 1) frame scope targets body
      (before.reach (depth + 1))
    rw [hfault] at hentered
    refine ⟨done, target, later, fault, _, hsplit, fun one hone other hother => ?_,
      Settings.bodyFor_eq_error.mp hfailed, Run.perform_bind_of_error (Prod.ext hentered rfl)⟩
    obtain ⟨results, hresults⟩ := hpassed one hone
    cases hresults.symm.trans (Settings.bodyFor_eq_error.mpr hother)

/-- Three levels and one replacement, which is what the scope below needs. -/
def tightSettings : Settings := { registry := Catalogue.registry, limits := ⟨3, 1⟩ }

/-- The code that adds `f` to the hook of a mode. -/
def modeHookCode (mode : String) : Form :=
  .call "add-hook" [.quote (.symbol (mode ++ "-hook")), .function (.symbol "f")]

theorem expand_scope_targets_of_modes :
    (tightSettings.expand 3 0 .empty (.call ":with-mode"
        [.list [.symbol "a", .symbol "b"], .call ":hook" [.symbol "f"]])).perform {} =
      (.ok (.call "progn" [modeHookCode "a", modeHookCode "b"]),
        { replacements := 3, deepest := 3, tally := [(":hook", 2), (":with-mode", 1)] }) ∧
    ∃ done target later fault after,
      [Form.symbol "a", .int 1, .symbol "b"] = done ++ target :: later ∧
      (∀ one ∈ done, ∀ other,
        ¬ tightSettings.Fails 2 .empty .mode [.call ":hook" [.symbol "f"]] one other) ∧
      tightSettings.Fails 2 .empty .mode [.call ":hook" [.symbol "f"]] target fault ∧
      (tightSettings.expand 3 0 .empty (.call ":with-mode"
        [.list [.symbol "a", .int 1, .symbol "b"], .call ":hook" [.symbol "f"]])).perform {} =
          (.error fault, after) := by
  have hbuiltin : tightSettings.registry = Catalogue.registry := by rw [tightSettings]
  have hscope : tightSettings.registry.find? Scope.mode.ruleName =
      Catalogue.registry.find? Scope.mode.ruleName := by rw [hbuiltin]
  have hprogn : tightSettings.registry.contains "progn" = false :=
    hbuiltin ▸ Catalogue.not_contains_names "progn" (by decide)
  have hsettled : ∀ mode, tightSettings.registry.Settled (modeHookCode mode) := by
    intro mode
    have hhost : tightSettings.registry.contains "add-hook" = false :=
      hbuiltin ▸ Catalogue.not_contains_names "add-hook" (by decide)
    refine (Registry.settled_call hhost (by decide)).mpr fun arg harg => ?_
    have hatoms : arg = .quote (.symbol (mode ++ "-hook")) ∨ arg = .function (.symbol "f") := by
      simpa using harg
    rcases hatoms with rfl | rfl <;>
      exact Registry.settled_iff.mpr ⟨rfl, fun _ hnone => nomatch hnone⟩
  have hall := fun targets => expand_scope_targets hscope hprogn (by decide) 2 0 .empty
    targets [.call ":hook" [.symbol "f"]] {}
  constructor
  · exact (hall (.list [.symbol "a", .symbol "b"])).1 ["a", "b"]
      [[modeHookCode "a"], [modeHookCode "b"]]
      { replacements := 2, deepest := 3, tally := [(":hook", 2)] } rfl (by rfl)
      (by simp [hsettled])
  · exact (hall (.list [.symbol "a", .int 1, .symbol "b"])).2 ⟨.int 1, by simp [Form.elements],
      .inl rfl⟩

end Rulebook
