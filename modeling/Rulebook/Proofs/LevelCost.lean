import Rulebook.Proofs.FixedPoint
import Rulebook.Proofs.Limits
import Rulebook.Proofs.Restoration

/-!
# What it costs to go over a settled form

A settled form comes out of expansion as it went in, if there is room for it at
all. The room it takes is `walk`, the levels of the form where expansion looks,
and this is exact: with one level less the run fails. Either way no rule is
applied, and what the run notes are the levels it entered.

The run that succeeds is `Settings.expand_of_settled`. The run that fails is
followed in the same way here. Items that fit are left as they are, and the
first one that does not fit is gone down into until no room is left. So a run
that fails has entered every level it was allowed, and none of the items before
the failing one can have gone further down than that.
-/

namespace Rulebook

/-- Forms that are each left as they are if they fit, where one does not: if the
first one fits, a later one does not. -/
theorem Scene.expandAll_of_tall (scene : Scene) {room depth : Nat} {fault : Fault}
    {items : List Form}
    (hshort : ∀ item ∈ items, item.walk ≤ room → ∀ progress,
      (scene.expandIn scene.frame item).perform progress =
        (.ok item, progress.reach (depth + item.walk)))
    (htall : ∀ item ∈ items, room < item.walk → ∀ progress, depth ≤ progress.deepest →
      (scene.expandIn scene.frame item).perform progress =
        (.error fault, progress.reach (depth + room)))
    (h : room < Form.walkOf items) {progress : Progress} (hdeep : depth ≤ progress.deepest) :
    (scene.expandAll items).perform progress = (.error fault, progress.reach (depth + room)) := by
  induction items generalizing progress with
  | nil => exact absurd h (Nat.not_lt_zero _)
  | cons item items ih =>
      rw [expandAll, List.mapM_cons]
      rcases Nat.lt_or_ge room item.walk with hitem | hitem
      · exact Run.perform_bind_of_error (htall item (by simp) hitem progress hdeep)
      · have hlater : room < Form.walkOf items := by
          rw [Form.walkOf] at h
          omega
        have hdeeper : depth ≤ (progress.reach (depth + item.walk)).deepest :=
          Nat.le_trans hdeep (Nat.le_max_left _ _)
        have hrest := ih (fun one ho => hshort one (by simp [ho]))
          (fun one ho => htall one (by simp [ho])) hlater hdeeper
        have hlevels : max (depth + item.walk) (depth + room) = depth + room := by omega
        rw [Progress.reach_reach, hlevels] at hrest
        rw [Run.perform_bind_of_ok (hshort item (by simp) hitem progress)]
        exact Run.perform_bind_of_error hrest

namespace Settings

/-- A settled form that is taller than the room left: the run goes down as far
as it may and fails there. -/
theorem expand_of_tall {settings : Settings} {room : Nat} {form : Form}
    (h : settings.registry.Settled form) (hroom : room < form.walk) {depth : Nat} (frame : Frame)
    {progress : Progress} (hdeep : depth ≤ progress.deepest) :
    (settings.expand room depth frame form).perform progress =
      (.error (.nestedTooDeep settings.limits.depth), progress.reach (depth + room)) := by
  induction room generalizing form depth progress with
  | zero =>
      rw [Nat.add_zero, Progress.reach_of_le hdeep]
      rfl
  | succ room ih =>
      obtain ⟨hidle, hparts⟩ := Registry.settled_iff.mp h
      replace hroom : room < Form.walkOf form.parts := by
        rw [Form.walk_eq] at hroom
        omega
      have hentered : depth + 1 ≤ (progress.reach (depth + 1)).deepest := Nat.le_max_right _ _
      have hshort : ∀ part ∈ form.parts, part.walk ≤ room → ∀ before,
          (settings.expand room (depth + 1) frame part).perform before =
            (.ok part, before.reach (depth + 1 + part.walk)) := by
        intro part hpart hwalk before
        exact expand_of_settled (hparts part hpart) hwalk (depth + 1) frame before
      have htall : ∀ part ∈ form.parts, room < part.walk → ∀ before, depth + 1 ≤ before.deepest →
          (settings.expand room (depth + 1) frame part).perform before =
            (.error (.nestedTooDeep settings.limits.depth), before.reach (depth + 1 + room)) := by
        intro part hpart hwalk before hbefore
        exact ih (hparts part hpart) hwalk hbefore
      have hlevels : depth + (room + 1) = max (depth + 1) (depth + 1 + room) := by omega
      rw [expand_succ, settle_of_idle hidle, pure_bind,
        Run.perform_bind_of_ok (Run.perform_note _ _), hlevels, ← Progress.reach_reach]
      unfold Scene.descend
      split
      · next items =>
          split
          · next hdata =>
              rw [Form.parts_of_data hdata] at hroom
              exact absurd hroom (Nat.not_lt_zero _)
          · next hcode =>
              rw [Form.parts_of_code hcode] at hroom hshort htall
              exact Run.perform_bind_of_error
                (Scene.expandAll_of_tall _ hshort htall hroom hentered)
      · next items =>
          have hone : Form.list items ∈ (Form.function (.list items)).parts :=
            List.mem_singleton.mpr rfl
          have hwalk : room < (Form.list items).walk := by
            rw [Form.parts, Form.walkOf, Form.walkOf] at hroom
            omega
          exact Run.perform_bind_of_error (htall _ hone hwalk _ hentered)
      · next hlist hmark =>
          rw [Form.parts_of_passed hlist hmark] at hroom
          exact absurd hroom (Nat.not_lt_zero _)

/-- The same from any progress, where there is some room: entering the first
level notes the one above as well. -/
theorem expand_of_tall_room {settings : Settings} {room : Nat} {form : Form}
    (h : settings.registry.Settled form) (hpositive : 0 < room) (hroom : room < form.walk)
    (depth : Nat) (frame : Frame) (progress : Progress) :
    (settings.expand room depth frame form).perform progress =
      (.error (.nestedTooDeep settings.limits.depth), progress.reach (depth + room)) := by
  have hnoted : (settings.expand room depth frame form).perform progress =
      (settings.expand room depth frame form).perform (progress.reach depth) := by
    obtain ⟨below, rfl⟩ := Nat.exists_eq_succ_of_ne_zero (Nat.ne_of_gt hpositive)
    rw [expand_succ, Run.perform_bind_of_ok (Run.perform_note _ _),
      Run.perform_bind_of_ok (Run.perform_note _ _), Progress.reach_reach,
      Nat.max_eq_right (Nat.le_succ depth)]
  have habove : depth ≤ (progress.reach depth).deepest := Nat.le_max_right _ _
  rw [hnoted, expand_of_tall h hroom frame habove, Progress.reach_reach,
    Nat.max_eq_right (Nat.le_add_right depth room)]

end Settings

/-- A settled form takes `walk` levels. Below `depth` levels, with the room that
the limit leaves, expansion returns it if it fits and otherwise fails at the
limit; no rule is applied, and of the progress only the deepest level changes.
An expander at that level keeps its level and its context with it. And whatever a
form is expanded to fits into the room that its expansion had. -/
theorem expand_takes_walk (settings : Settings) (depth : Nat) (frame : Frame) :
    (∀ form, settings.registry.Settled form → ∀ progress,
      (depth + form.walk ≤ settings.limits.depth →
        (settings.expand (settings.limits.depth - depth) depth frame form).perform progress =
          (.ok form, progress.reach (depth + form.walk))) ∧
      (settings.limits.depth < depth + form.walk →
        (settings.expand (settings.limits.depth - depth) depth frame form).perform progress =
          (.error (.nestedTooDeep settings.limits.depth),
            if depth < settings.limits.depth then progress.reach settings.limits.depth
            else progress)) ∧
      (depth + form.walk ≤ settings.limits.depth →
        Request.serve ⟨settings, frame, depth, progress⟩ (.expand form) =
          (.ok (.form form), ⟨settings, frame, depth, progress.reach (depth + form.walk)⟩))) ∧
    ∀ form out before after,
      (settings.expand (settings.limits.depth - depth) depth frame form).perform before =
        (.ok out, after) → depth + out.walk ≤ settings.limits.depth := by
  refine ⟨fun form hsettled progress => ⟨fun hfits => ?_, fun htall => ?_, fun hfits => ?_⟩, ?_⟩
  · exact Settings.expand_of_settled hsettled (by omega) depth frame progress
  · rcases Nat.lt_or_ge depth settings.limits.depth with hlow | hhigh
    · rw [Settings.expand_of_tall_room hsettled (by omega) (by omega), if_pos hlow,
        Nat.add_sub_cancel' (Nat.le_of_lt hlow)]
    · rw [Nat.sub_eq_zero_of_le hhigh, if_neg (by omega)]
      rfl
  · have hroom : form.walk ≤ settings.limits.depth - depth := by omega
    have hrun := Settings.expand_of_settled hsettled hroom depth frame progress
    rw [Request.serve_expand, Expander.carry, Run.perform_map]
    dsimp only [Expander.scene, Settings.inside]
    rw [hrun]
    rfl
  · intro form out before after hrun
    have houtcome : settings.outcome (settings.limits.depth - depth) frame form = .ok out := by
      rw [← settings.expand_yields _ depth frame form before, hrun]
    have hwalk := Settings.walk_le_of_outcome houtcome
    rw [Form.walk_eq] at hwalk ⊢
    omega

/-- Code of four levels, with a rule's name in data that is passed over. -/
def fourLevels : Form :=
  .call "progn"
    [.function (.call "lambda" [.list [], .symbol "x"]),
     .list [.symbol "quote", .call ":wrap" []],
     .vector [.call ":wrap" []]]

/-- Five levels, and no rule may be applied. -/
def fiveLevelSettings : Settings := { registry := wrapAndFail, limits := ⟨5, 0⟩ }

theorem expand_takes_walk_of_four_levels :
    (fiveLevelSettings.expand 4 1 hookFrame fourLevels).perform {} =
      (.ok fourLevels, { deepest := 5 }) ∧
    (fiveLevelSettings.expand 3 2 hookFrame fourLevels).perform {} =
      (.error (.nestedTooDeep 5), { deepest := 5 }) ∧
    Request.serve ⟨fiveLevelSettings, hookFrame, 1, {}⟩ (.expand fourLevels) =
      (.ok (.form fourLevels), ⟨fiveLevelSettings, hookFrame, 1, { deepest := 5 }⟩) ∧
    1 + fourLevels.walk ≤ 5 := by
  have hhost : ∀ head ∈ ["progn", "lambda", "quote"],
      fiveLevelSettings.registry.contains head = false := by
    decide +kernel
  have hatom : ∀ form : Form, form.parts = [] →
      fiveLevelSettings.registry.invocation? form = none →
        fiveLevelSettings.registry.Settled form := by
    intro form hparts hidle
    exact Registry.settled_iff.mpr ⟨hidle, by simp [hparts]⟩
  have hthunk : fiveLevelSettings.registry.Settled
      (.function (.call "lambda" [.list [], .symbol "x"])) := by
    refine Registry.settled_iff.mpr ⟨rfl, fun part hpart => ?_⟩
    rw [List.mem_singleton.mp hpart]
    refine (Registry.settled_call (hhost _ (by simp)) (by decide)).mpr ?_
    simp only [List.forall_mem_cons]
    exact ⟨hatom _ rfl rfl, hatom _ rfl rfl, by simp⟩
  have hsettled : fiveLevelSettings.registry.Settled fourLevels := by
    refine (Registry.settled_call (hhost _ (by simp)) (by decide)).mpr ?_
    simp only [List.forall_mem_cons]
    exact ⟨hthunk, hatom _ rfl (Registry.invocation?_call (hhost _ (by simp)) _), hatom _ rfl rfl,
      by simp⟩
  obtain ⟨hsecond, hbound⟩ := expand_takes_walk fiveLevelSettings 1 hookFrame
  obtain ⟨hthird, -⟩ := expand_takes_walk fiveLevelSettings 2 hookFrame
  obtain ⟨hfits, -, hserves⟩ := hsecond fourLevels hsettled {}
  obtain ⟨-, htall, -⟩ := hthird fourLevels hsettled {}
  have hrun := hfits (by decide)
  exact ⟨hrun, htall (by decide), hserves (by decide), hbound _ _ _ _ hrun⟩

end Rulebook
