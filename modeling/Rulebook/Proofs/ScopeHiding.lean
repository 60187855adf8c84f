import Rulebook.Proofs.FixedPoint
import Rulebook.Proofs.Setups

/-!
# What a feature scope hides

A feature implies a mode, a map and a hook, so its scope binds every key that a
rule can ask for except the tag of early exits. Inside, nothing of the outer
context shows but that tag.

The scope is left before expansion is done with its body, though. What the body
came to is put in place of the scope and looked at once more, in the outer
context. As a rule there is nothing left to do by then: the forms of the body
have been expanded, and their results are settled. The exception is a name that
surfaced. It heads a list by now, and the rule of that name is invoked out
there, where it finds what the scope was to hide.
-/

namespace Rulebook

/-- `(:with-feature name body...)` -/
def featureScope (name : String) (body : List Form) : Form :=
  .call ":with-feature" (.symbol name :: body)

/-- The context in the scope of a named thing. -/
def Frame.within (frame : Frame) (scope : Scope) (name : String) : Frame :=
  frame.bindAll (scope.symbolBindings name)

/-- A feature binds every key but the tag of early exits. -/
theorem Frame.agrees_within_feature {frame other : Frame}
    (h : frame.find? .quit = other.find? .quit) (name : String) :
    (frame.within .feature name).Agrees (other.within .feature name) := by
  intro key
  simp only [within, bindAll, Scope.symbolBindings, Scope.modeBindings, List.foldl_cons,
    List.foldl_nil, find?_bind]
  cases key with
  | quit => exact h
  | _ => rfl

namespace Scene

/-- A scope of one target is its body in the context of that target. -/
theorem enter_symbol (scene : Scene) (scope : Scope) (name : String) (body : List Form) :
    scene.enter scope (.symbol name) body =
      (scene.withFrame (scene.frame.within scope name)).expandBody body := by
  simp [enter, expandFor, expandBody, Form.elements, Scope.bindings, Means.settled, Frame.within]

/-- Going down into a form is the same in two scenes that treat the forms inside
alike. -/
theorem descend_congr {scene other : Scene} {form : Form}
    (h : ∀ part ∈ form.parts, scene.expandIn scene.frame part = other.expandIn other.frame part) :
    scene.descend form = other.descend form := by
  unfold descend
  split
  · next items =>
      split
      · rfl
      · next hcode =>
          rw [Form.parts_of_code hcode] at h
          have hall : scene.expandAll items = other.expandAll items :=
            Pairing.equal.mapM h
          rw [hall]
  · next items => rw [h _ (List.mem_singleton.mpr rfl)]
  · rfl

end Scene

theorem Registry.invocation?_of_find? {registry : Registry} {head : String} {entry : Entry}
    (h : registry.find? head = some entry) (args : List Form) :
    registry.invocation? (.call head args) = some (entry, args) := by
  simp [invocation?, Form.call, Form.call?, h]

/-- The rule that enters a scope expands the body for each target in turn. -/
theorem Catalogue.find?_scope (scope : Scope) :
    ∃ entry, Catalogue.registry.find? scope.ruleName = some entry ∧ entry.id = scope.ruleName ∧
      ∀ (scene : Scene) (targets : Form) (body : List Form),
        entry.apply scene.means (targets :: body) = scene.enter scope targets body := by
  cases scope with
  | feature => exact ⟨_, rfl, rfl, fun _ _ _ => rfl⟩
  | mode => exact ⟨_, rfl, rfl, fun _ _ _ => rfl⟩
  | map => exact ⟨_, rfl, rfl, fun _ _ _ => rfl⟩
  | hook => exact ⟨_, rfl, rfl, fun _ _ _ => rfl⟩

/-- A feature scope invokes the rule that expands the body in the context of the
feature. -/
theorem Catalogue.invocation?_feature (name : String) (body : List Form) :
    ∃ entry, Catalogue.registry.invocation? (featureScope name body) =
        some (entry, .symbol name :: body) ∧ entry.id = ":with-feature" ∧
      ∀ scene : Scene, entry.apply scene.means (.symbol name :: body) =
        (scene.withFrame (scene.frame.within .feature name)).expandBody body := by
  obtain ⟨entry, hfind, hid, happly⟩ := Catalogue.find?_scope .feature
  refine ⟨entry, ?_, hid, fun scene => ?_⟩
  · exact Registry.invocation?_of_find? hfind (.symbol name :: body)
  · rw [happly, scene.enter_symbol]

namespace Settings

/-- All forms of a body have results in the scope, and in one of them the name of
a rule surfaced. -/
def Leaks (settings : Settings) (scope : Frame) (room : Nat) (body : List Form) : Prop :=
  (∃ results, body.mapM (settings.outcome room scope) = .ok results) ∧
    ∃ form ∈ body, settings.Surfaces scope room form

/-- Settled results mean that no name surfaced, form by form. -/
theorem settled_iff_of_outcomes {settings : Settings} {scope : Frame} {room : Nat}
    {body results : List Form}
    (h : List.Forall₂ (fun form result => settings.outcome room scope form = .ok result) body
      results) :
    (∀ result ∈ results, settings.registry.Settled result) ↔
      ∀ form ∈ body, ¬ settings.Surfaces scope room form := by
  constructor
  · intro hsettled form hform hsurfaces
    obtain ⟨result, hresult, hended⟩ := exists_mem_of_forall₂ h hform
    exact hsurfaces.not_settled hended (hsettled result hresult)
  · intro hquiet result hresult
    obtain ⟨form, hform, hended⟩ := exists_mem_of_forall₂ h.flip hresult
    by_contra hunsettled
    exact hquiet form hform (surfaces_of_outcome hended hunsettled)

theorem leaks_iff {settings : Settings} (hprogn : settings.registry.contains "progn" = false)
    {scope : Frame} {room : Nat} {body : List Form} :
    settings.Leaks scope room body ↔
      ∃ results, body.mapM (settings.outcome room scope) = .ok results ∧
        ¬ settings.registry.Settled (.sequence results) := by
  constructor
  · rintro ⟨⟨results, hresults⟩, form, hform, hsurfaces⟩
    refine ⟨results, hresults, fun hsettled => ?_⟩
    have heach := (Registry.settled_sequence hprogn).mp hsettled
    exact (settled_iff_of_outcomes (mapM_eq_ok.mp hresults)).mp heach form hform hsurfaces
  · rintro ⟨results, hresults, hunsettled⟩
    refine ⟨⟨results, hresults⟩, ?_⟩
    by_contra hquiet
    have heach := (settled_iff_of_outcomes (mapM_eq_ok.mp hresults)).mpr fun form hform hs =>
      hquiet ⟨form, hform, hs⟩
    exact hunsettled ((Registry.settled_sequence hprogn).mpr heach)

theorem expandBody_yields (settings : Settings) (room depth : Nat) (frame : Frame)
    (body : List Form) :
    ((settings.inside room depth frame).expandBody body).Yields
      (body.mapM (settings.outcome room frame) >>= fun results => .ok (.sequence results)) :=
  (Run.Yields.mapM (settings.expand_yields room depth frame) body).bind fun _ => .pure _

/-- A settled form is gone over alike in all contexts. -/
theorem descend_of_settled {settings : Settings} {room : Nat} {form : Form}
    (h : settings.registry.Settled form) (hroom : Form.walkOf form.parts ≤ room) (depth : Nat)
    (frame other : Frame) :
    (settings.inside room depth frame).descend form =
      (settings.inside room depth other).descend form := by
  refine Scene.descend_congr fun part hpart => Run.ext fun progress => ?_
  have hsettled := (Registry.settled_iff.mp h).2 part hpart
  have hwalk := Nat.le_trans (Form.walk_le_walkOf hpart) hroom
  exact (expand_of_settled hsettled hwalk depth frame progress).trans
    (expand_of_settled hsettled hwalk depth other progress).symm

theorem descended_of_settled {settings : Settings} {room : Nat} {form : Form}
    (h : settings.registry.Settled form) (hroom : Form.walkOf form.parts ≤ room) (frame : Frame) :
    settings.descended room frame form = .ok form := by
  have hwalk : form.walk ≤ room + 1 := by
    rw [Form.walk_eq]
    omega
  have houtcome : settings.outcome (room + 1) frame form = .ok form :=
    congrArg Prod.fst (expand_of_settled h hwalk 0 frame {})
  rwa [outcome_succ, rest_of_idle (Registry.settled_iff.mp h).1] at houtcome

/-! ## The scope of a feature -/

section FeatureScope

variable {settings : Settings} (hbuiltin : settings.registry = Catalogue.registry) {room : Nat}
  {frame : Frame} {name : String} {body : List Form}

include hbuiltin

theorem settle_feature (depth level left : Nat) :
    settings.settle (settings.inside room depth frame) level (left + 1) (featureScope name body) =
      (do
        let made ← (settings.inside room depth (frame.within .feature name)).expandBody body
        Run.note (·.record settings.tracing ":with-feature" level)
        settings.settle (settings.inside room depth frame) level left made) := by
  obtain ⟨entry, hcall, hid, happly⟩ := Catalogue.invocation?_feature name body
  rw [settle, hbuiltin, hcall]
  dsimp only
  rw [hid, happly]
  rfl

theorem settle_feature_zero (scene : Scene) (level : Nat) :
    settings.settle scene level 0 (featureScope name body) =
      throw (.replacedTooOften ":with-feature" settings.limits.replacements) := by
  obtain ⟨entry, hcall, hid, -⟩ := Catalogue.invocation?_feature name body
  rw [settle, hbuiltin, hcall]
  dsimp only
  rw [hid]

theorem leaks_iff_of_builtin {scope : Frame} :
    settings.Leaks scope room body ↔
      ∃ results, body.mapM (settings.outcome room scope) = .ok results ∧
        ¬ settings.registry.Settled (.sequence results) := by
  refine leaks_iff ?_
  rw [hbuiltin]
  exact Catalogue.not_contains_names "progn" (by decide)

/-- What a body that leaks no name came to is settled, and there is room to go
over it. -/
theorem settled_of_not_leaks {scope : Frame} (hquiet : ¬ settings.Leaks scope room body)
    {results : List Form} (h : body.mapM (settings.outcome room scope) = .ok results) :
    settings.registry.Settled (.sequence results) ∧
      Form.walkOf (Form.sequence results).parts ≤ room := by
  constructor
  · by_contra hunsettled
    exact hquiet ((leaks_iff_of_builtin hbuiltin).mpr ⟨results, h, hunsettled⟩)
  · refine Form.walkOf_parts_sequence fun result hresult => ?_
    obtain ⟨form, -, hended⟩ := exists_mem_of_forall₂ (mapM_eq_ok.mp h).flip hresult
    exact walk_le_of_outcome hended

/-- Two scopes of one feature expand their bodies by the same run, and what comes
after it finds nothing left to do. -/
theorem expand_feature_congr {other : Frame} (hquit : frame.find? .quit = other.find? .quit)
    (hquiet : ¬ settings.Leaks (frame.within .feature name) room body) (depth : Nat) :
    settings.expand (room + 1) depth frame (featureScope name body) =
      settings.expand (room + 1) depth other (featureScope name body) := by
  have hscenes : Pairing.equal.Scenes
      (settings.inside room (depth + 1) (frame.within .feature name))
      (settings.inside room (depth + 1) (other.within .feature name)) :=
    ⟨rfl, Frame.agrees_within_feature hquit name, fun hframe form =>
      settings.expand_congr room (depth + 1) hframe form⟩
  rw [expand_succ, expand_succ]
  rcases settings.limits.replacements with _ | left
  · rw [settle_feature_zero hbuiltin, settle_feature_zero hbuiltin]
    rfl
  · rw [settle_feature hbuiltin, settle_feature hbuiltin, ← hscenes.expandBody body]
    simp only [bind_assoc]
    refine congrArg (_ >>= ·) (funext fun _ => Run.bind_congr fun before made after hrun => ?_)
    have hmade := settings.expandBody_yields room (depth + 1) (frame.within .feature name) body
      before
    rw [hrun] at hmade
    obtain ⟨results, hresults, hsequence⟩ := bind_eq_ok.mp hmade.symm
    cases hsequence
    obtain ⟨hdone, hwalk⟩ := settled_of_not_leaks hbuiltin hquiet hresults
    simp only [settle_of_idle (Registry.settled_iff.mp hdone).1, pure_bind]
    rw [descend_of_settled hdone hwalk (depth + 1) frame other]

theorem outcome_feature (hquiet : ¬ settings.Leaks (frame.within .feature name) room body)
    {results : List Form}
    (h : body.mapM (settings.outcome room (frame.within .feature name)) = .ok results)
    (hpositive : 0 < settings.limits.replacements) :
    settings.outcome (room + 1) frame (featureScope name body) = .ok (.sequence results) := by
  obtain ⟨hdone, hwalk⟩ := settled_of_not_leaks hbuiltin hquiet h
  have hrest : settings.rest room frame (featureScope name body) = .ok (.sequence results) := by
    obtain ⟨left, hleft⟩ := Nat.exists_eq_succ_of_ne_zero (Nat.ne_of_gt hpositive)
    have hmade := settings.expandBody_yields room 0 (frame.within .feature name) body {}
    rw [h] at hmade
    rw [rest, hleft, settle_feature hbuiltin, Run.perform_bind_of_ok (Prod.ext hmade rfl),
      Run.perform_bind_of_ok (by rfl), settle_of_idle (Registry.settled_iff.mp hdone).1]
    rfl
  rw [outcome_succ, hrest]
  exact descended_of_settled hdone hwalk frame

end FeatureScope

end Settings

/-- A feature scope in two contexts with the same tag for early exits. Unless the
body leaves the name of a rule at the head of a list, which is when what it came
to is not settled, the two runs are the same in all respects, and what the scope
is replaced by is what its body comes to inside. -/
theorem expand_feature_scope {settings : Settings}
    (hbuiltin : settings.registry = Catalogue.registry) {frame other : Frame}
    (hquit : frame.find? .quit = other.find? .quit) (name : String) (body : List Form)
    (room depth : Nat) :
    (settings.Leaks (frame.within .feature name) (room - 1) body ↔
      ∃ results, body.mapM (settings.outcome (room - 1) (frame.within .feature name)) =
        .ok results ∧ ¬ settings.registry.Settled (.sequence results)) ∧
    (¬ settings.Leaks (frame.within .feature name) (room - 1) body →
      settings.expand room depth frame (featureScope name body) =
        settings.expand room depth other (featureScope name body) ∧
      ∀ results,
        body.mapM (settings.outcome (room - 1) (frame.within .feature name)) = .ok results →
          0 < room → 0 < settings.limits.replacements →
            settings.outcome room frame (featureScope name body) = .ok (.sequence results)) := by
  refine ⟨Settings.leaks_iff_of_builtin hbuiltin, fun hquiet => ?_⟩
  cases room with
  | zero => exact ⟨rfl, fun _ _ hroom => absurd hroom (Nat.lt_irrefl 0)⟩
  | succ room =>
      refine ⟨Settings.expand_feature_congr hbuiltin hquit hquiet depth, ?_⟩
      exact fun results hresults _ hpositive =>
        Settings.outcome_feature hbuiltin hquiet hresults hpositive

/-- A context that binds a hook only, by name. -/
def hookNamed (name : String) : Frame := Frame.empty.bind .hook (.symbol name)

theorem expand_feature_scope_of_hook :
    (hookNamed "one").find? .quit = (hookNamed "two").find? .quit ∧
    ¬ builtinSettings.Leaks ((hookNamed "one").within .feature "t") 255
      [.call ":hook" [.symbol "a"]] ∧
    builtinSettings.expand 256 0 (hookNamed "one")
        (featureScope "t" [.call ":hook" [.symbol "a"]]) =
      builtinSettings.expand 256 0 (hookNamed "two")
        (featureScope "t" [.call ":hook" [.symbol "a"]]) ∧
    builtinSettings.outcome 256 (hookNamed "one")
        (featureScope "t" [.call ":hook" [.symbol "a"]]) =
      .ok (.call "add-hook" [.quote (.symbol "t-mode-hook"), .function (.symbol "a")]) := by
  have hquit : (hookNamed "one").find? .quit = (hookNamed "two").find? .quit := by rfl
  have hbuiltin : builtinSettings.registry = Catalogue.registry := by rw [builtinSettings]
  obtain ⟨hleaks, hsame⟩ := expand_feature_scope hbuiltin hquit "t" [.call ":hook" [.symbol "a"]]
    256 0
  have hresults : [Form.call ":hook" [.symbol "a"]].mapM
      (builtinSettings.outcome 255 ((hookNamed "one").within .feature "t")) =
        .ok [.call "add-hook" [.quote (.symbol "t-mode-hook"), .function (.symbol "a")]] := by
    rfl
  have hquiet : ¬ builtinSettings.Leaks ((hookNamed "one").within .feature "t") 255
      [.call ":hook" [.symbol "a"]] := by
    intro hleak
    obtain ⟨results, hother, hunsettled⟩ := hleaks.mp hleak
    cases hresults.symm.trans hother
    have hhost := Catalogue.not_contains_names "add-hook" (by decide)
    refine hunsettled ((Registry.settled_call hhost (by decide)).mpr fun arg harg => ?_)
    have hatoms : arg = .quote (.symbol "t-mode-hook") ∨ arg = .function (.symbol "a") := by
      simpa using harg
    rcases hatoms with rfl | rfl <;>
      exact Registry.settled_iff.mpr ⟨rfl, fun _ hnone => nomatch hnone⟩
  obtain ⟨hrun, houtcome⟩ := hsame hquiet
  exact ⟨hquit, hquiet, hrun, houtcome _ hresults (by decide) (by decide)⟩

/-- A body in which the name `:hook` surfaces. -/
def surfacing : List Form :=
  [.list [.call ":with-map" [.symbol "m", .symbol ":hook"], .symbol "a"]]

/-- A name that surfaces in the body is invoked outside the scope, and the hook
is the outer one. -/
theorem expand_feature_scope_of_list_head :
    (hookNamed "one").find? .quit = (hookNamed "two").find? .quit ∧
    builtinSettings.outcome 256 (hookNamed "one") (featureScope "t" surfacing) =
      .ok (.call "add-hook" [.quote (.symbol "one"), .function (.symbol "a")]) ∧
    builtinSettings.outcome 256 (hookNamed "two") (featureScope "t" surfacing) =
      .ok (.call "add-hook" [.quote (.symbol "two"), .function (.symbol "a")]) := by
  exact ⟨rfl, rfl, rfl⟩

end Rulebook
