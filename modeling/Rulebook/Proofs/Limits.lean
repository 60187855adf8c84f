import Rulebook.Proofs.Lockstep

/-!
# The limits only ever cut a run short

No run records its limits: they appear in the faults that name them and in the
room that expansion starts with. So of two runs under different limits the one
follows the other until a limit stops one of them. `Follows` says this of single
steps: while the first run stays at levels the second may reach, the second does
the same, and once it has gone deeper the second has failed for want of room.

What makes the threshold exact is that a run notes every level it enters. The
deepest level noted is the room the run needed, no more and no less.
-/

namespace Rulebook

/-- The faults of a run that was cut short. -/
def Fault.IsLimit : Fault → Prop
  | .nestedTooDeep _ => True
  | .replacedTooOften _ _ => True
  | _ => False

/-- The second run follows the first, `depth` levels down and no further. -/
structure Run.Follows (depth : Nat) {α : Type} (first second : Run α) : Prop where
  /-- The levels noted before stay noted. -/
  deepens : ∀ progress, progress.deepest ≤ (first.perform progress).2.deepest
  /-- A result is the same if the first run found it within `depth` levels. -/
  within : ∀ {progress value after}, progress.deepest ≤ depth →
    first.perform progress = (.ok value, after) → after.deepest ≤ depth →
      second.perform progress = (.ok value, after)
  /-- A result found further down is missed. -/
  beyond : ∀ {progress value after}, progress.deepest ≤ depth →
    first.perform progress = (.ok value, after) → depth < after.deepest →
      (second.perform progress).1 = .error (.nestedTooDeep depth)
  /-- A fault is the same if it is no limit's. -/
  fault : ∀ {progress fault after}, progress.deepest ≤ depth →
    first.perform progress = (.error fault, after) → ¬ fault.IsLimit → after.deepest ≤ depth →
      second.perform progress = (.error fault, after)

namespace Run

namespace Follows

variable {depth : Nat}

theorem pure {α : Type} (value : α) :
    Follows depth (Pure.pure value : Run α) (Pure.pure value) where
  deepens progress := Nat.le_refl _
  within _ h _ := h
  beyond := by
    intro progress result after hp h hafter
    injection h with _ h
    subst h
    omega
  fault _ h := by
    injection h with h
    cases h

theorem throw {α : Type} (fault : Fault) :
    Follows depth (MonadExcept.throw fault : Run α) (MonadExcept.throw fault) where
  deepens progress := Nat.le_refl _
  within _ h := by
    injection h with h
    cases h
  beyond _ h := by
    injection h with h
    cases h
  fault _ h _ _ := h

/-- A step that only takes notes, at a level the second run reaches too. -/
theorem note {change : Progress → Progress} {level : Nat} (hlevel : level ≤ depth)
    (h : ∀ progress, (change progress).deepest = max progress.deepest level) :
    Follows depth (Run.note change) (Run.note change) where
  deepens progress := by
    show progress.deepest ≤ (change progress).deepest
    rw [h]
    exact Nat.le_max_left _ _
  within _ h _ := h
  beyond := by
    intro progress result after hp hnote hafter
    injection hnote with _ hnote
    subst hnote
    rw [h] at hafter
    omega
  fault _ h := by
    injection h with h
    cases h

/-- Two parts follow when each of them does: a run that passes the depth passes it
in the first part or in the second. -/
theorem bind {α β : Type} {first second : Run α} {next other : α → Run β}
    (h : Follows depth first second) (hnext : ∀ value, Follows depth (next value) (other value)) :
    Follows depth (first >>= next) (second >>= other) where
  deepens progress := by
    rw [perform_bind]
    have hfirst := h.deepens progress
    split
    · next value between hrun =>
        rw [hrun] at hfirst
        exact Nat.le_trans hfirst ((hnext value).deepens between)
    · next fault between hrun =>
        rw [hrun] at hfirst
        exact hfirst
  within := by
    intro progress result after hp hrun hafter
    obtain ⟨value, between, hfirst, hrest⟩ := perform_bind_ok hrun
    have hdeep := (hnext value).deepens between
    rw [hrest] at hdeep
    have hbetween : between.deepest ≤ depth := Nat.le_trans hdeep hafter
    rw [perform_bind_of_ok (h.within hp hfirst hbetween)]
    exact (hnext value).within hbetween hrest hafter
  beyond := by
    intro progress result after hp hrun hafter
    obtain ⟨value, between, hfirst, hrest⟩ := perform_bind_ok hrun
    by_cases hbetween : between.deepest ≤ depth
    · rw [perform_bind_of_ok (h.within hp hfirst hbetween)]
      exact (hnext value).beyond hbetween hrest hafter
    · have hsecond : second.perform progress =
          (.error (.nestedTooDeep depth), (second.perform progress).2) :=
        Prod.ext (h.beyond hp hfirst (by omega)) rfl
      rw [perform_bind_of_error hsecond]
  fault := by
    intro progress fault after hp hrun hlimit hafter
    rcases perform_bind_error hrun with hfirst | ⟨value, between, hfirst, hrest⟩
    · exact perform_bind_of_error (h.fault hp hfirst hlimit hafter)
    · have hdeep := (hnext value).deepens between
      rw [hrest] at hdeep
      have hbetween : between.deepest ≤ depth := Nat.le_trans hdeep hafter
      rw [perform_bind_of_ok (h.within hp hfirst hbetween)]
      exact (hnext value).fault hbetween hrest hlimit hafter

/-- A run that is cut short says nothing about the other. -/
theorem limit {α : Type} {fault : Fault} (h : fault.IsLimit) (second : Run α) :
    Follows depth (MonadExcept.throw fault : Run α) second where
  deepens progress := Nat.le_refl _
  within _ h := by
    injection h with h
    cases h
  beyond _ h := by
    injection h with h
    cases h
  fault := by
    intro progress other after _ hthrow hlimit
    injection hthrow with hthrow
    injection hthrow with hthrow
    exact absurd (hthrow ▸ h) hlimit

/-- A run that enters a level goes beyond every depth above it. -/
theorem tooDeep {α : Type} {first : Run α} (hdeepens : ∀ progress,
      progress.deepest ≤ (first.perform progress).2.deepest)
    (hdeep : ∀ progress, depth < (first.perform progress).2.deepest) :
    Follows depth first (MonadExcept.throw (.nestedTooDeep depth)) where
  deepens := hdeepens
  within := by
    intro progress value after _ hrun hafter
    have := hdeep progress
    rw [hrun] at this
    exact absurd hafter (Nat.not_le.mpr this)
  beyond _ _ _ := rfl
  fault := by
    intro progress fault after _ hrun _ hafter
    have := hdeep progress
    rw [hrun] at this
    exact absurd hafter (Nat.not_le.mpr this)

end Follows

end Run

/-- A run that keeps the levels noted before. -/
def Pairing.deepening : Pairing :=
  .along (fun before after => before.deepest ≤ after.deepest) (fun _ => Nat.le_refl _) Nat.le_trans
    fun _ => Nat.le_refl _

/-- A run that notes no level below `depth`. -/
def Pairing.staying (depth : Nat) : Pairing :=
  .along (fun before after => before.deepest ≤ depth → after.deepest ≤ depth) (fun _ => id)
    (fun hfirst hnext h => hnext (hfirst h)) fun _ => id

/-- The pairs of runs of which the second follows the first. -/
def Pairing.following (depth : Nat) : Pairing where
  holds := Run.Follows depth
  pure := Run.Follows.pure
  throw := Run.Follows.throw
  guard := Run.Follows.note (Nat.zero_le _) fun progress => (Nat.max_zero progress.deepest).symm
  bind := Run.Follows.bind

namespace Settings

theorem settle_follows {low high : Settings} (hregistry : low.registry = high.registry)
    (htracing : low.tracing = high.tracing) {depth : Nat} {scene other : Scene}
    (h : (Pairing.following depth).Scenes scene other) (level : Nat) {left more : Nat}
    (hle : left ≤ more) (form : Form) :
    Run.Follows depth (low.settle scene level left form)
      (high.settle other level more form) := by
  induction left generalizing more form with
  | zero =>
      unfold Settings.settle
      rw [← hregistry]
      split
      · exact .pure _
      · exact .limit (by trivial) _
  | succ left ih =>
      obtain ⟨more, rfl⟩ : ∃ m, more = m + 1 := ⟨more - 1, by omega⟩
      unfold Settings.settle
      rw [← hregistry]
      split
      · exact .pure _
      · next entry args hcall =>
          refine .bind (h.apply entry args) fun replacement => ?_
          refine .bind ?_ fun _ => ih (by omega) replacement
          rw [htracing]
          exact .note (Nat.zero_le _) fun progress => (Nat.max_zero progress.deepest).symm

theorem expand_deepens (settings : Settings) (room depth : Nat) (frame : Frame) (form : Form)
    (progress : Progress) :
    progress.deepest ≤ ((settings.expand room depth frame form).perform progress).2.deepest :=
  Pairing.deepening.expand settings depth depth (fun _ _ _ _ => Nat.le_max_left _ _)
    (fun _ _ _ _ _ => Nat.le_refl _) (Frame.Agrees.refl frame) form progress

/-- Expansion with any room at all enters the level below. -/
theorem expand_enters (settings : Settings) (room depth : Nat) (frame : Frame) (form : Form)
    (progress : Progress) :
    depth < ((settings.expand (room + 1) depth frame form).perform progress).2.deepest := by
  have hscene : Pairing.deepening.Scenes (settings.inside room (depth + 1) frame)
      (settings.inside room (depth + 1) frame) :=
    ⟨rfl, .refl frame, fun _ inner => settings.expand_deepens room (depth + 1) _ inner⟩
  have hrest := Pairing.deepening.bind
    (Pairing.deepening.settle settings hscene (depth + 1) (depth + 1) (fun _ _ => Nat.le_refl _)
      settings.limits.replacements form) hscene.descend
  have hentered : depth < (progress.reach (depth + 1)).deepest := Nat.le_max_right _ _
  rw [expand_succ]
  exact Nat.lt_of_lt_of_le hentered (hrest (progress.reach (depth + 1)))

theorem expand_stays (settings : Settings) (room depth : Nat) (frame : Frame) (form : Form)
    (progress : Progress) (h : progress.deepest ≤ depth + room) :
    ((settings.expand room depth frame form).perform progress).2.deepest ≤ depth + room :=
  (Pairing.staying (depth + room)).expand settings depth depth
    (fun level _ hle before hbefore => Nat.max_le.mpr ⟨hbefore, by omega⟩)
    (fun _ _ _ _ _ => id) (Frame.Agrees.refl frame) form progress h

/-- Expansion under one pair of limits follows expansion under another that
allows at least as many replacements, whatever the room of either. If the second
has none left, then the first is about to enter a level too many. -/
theorem expand_follows (low high : Settings) (hregistry : low.registry = high.registry)
    (htracing : low.tracing = high.tracing)
    (hle : low.limits.replacements ≤ high.limits.replacements) {room depth room' : Nat}
    (hroom : depth + room' = high.limits.depth) {frame other : Frame}
    (hframe : frame.Agrees other) (form : Form) :
    Run.Follows high.limits.depth (low.expand room depth frame form)
      (high.expand room' depth other form) := by
  induction room generalizing depth room' frame other form with
  | zero => exact .limit (by trivial) _
  | succ room ih =>
      cases room' with
      | zero =>
          rw [Nat.add_zero] at hroom
          subst hroom
          exact .tooDeep (low.expand_deepens _ _ _ _) (low.expand_enters _ _ _ _)
      | succ room' =>
          have hscenes : (Pairing.following high.limits.depth).Scenes
              (low.inside room (depth + 1) frame) (high.inside room' (depth + 1) other) :=
            ⟨hregistry, hframe, fun hinner inner => ih (by omega) hinner inner⟩
          have hlevel : depth + 1 ≤ high.limits.depth := by omega
          rw [expand_succ, expand_succ]
          refine .bind (.note hlevel fun progress => rfl) fun _ => ?_
          refine .bind (settle_follows hregistry htracing hscenes _ hle form) fun settled => ?_
          exact hscenes.descend settled

end Settings

/-! ## Whole runs -/

/-- Expansion of one form from the very start, under the limits given. -/
def expandUnder (registry : Registry) (tracing : Bool) (frame : Frame) (form : Form)
    (limits : Limits) : Except Fault Form × Progress :=
  (Settings.expand ⟨registry, limits, tracing⟩ limits.depth 0 frame form).perform {}

theorem expandUnder_follows (registry : Registry) (tracing : Bool) (frame : Frame) (form : Form)
    {low high : Limits} (hle : low.replacements ≤ high.replacements) :
    Run.Follows high.depth (Settings.expand ⟨registry, low, tracing⟩ low.depth 0 frame form)
      (Settings.expand ⟨registry, high, tracing⟩ high.depth 0 frame form) :=
  Settings.expand_follows ⟨registry, low, tracing⟩ ⟨registry, high, tracing⟩ rfl rfl hle
    (Nat.zero_add _) (.refl frame) form

/-- The limits decide only how far a run gets. A result is found again, with the
same progress, under all limits that allow as many replacements and reach the
deepest level it needed; a smaller depth is exceeded, and named by the fault. A
fault that no limit caused is found again under all larger limits. -/
theorem expandUnder_limits (registry : Registry) (tracing : Bool) (frame : Frame) (form : Form)
    (low high : Limits) (hle : low.replacements ≤ high.replacements) :
    (∀ out progress, expandUnder registry tracing frame form low = (.ok out, progress) →
      (progress.deepest ≤ high.depth →
        expandUnder registry tracing frame form high = (.ok out, progress)) ∧
      (high.depth < progress.deepest →
        (expandUnder registry tracing frame form high).1 =
          .error (.nestedTooDeep high.depth))) ∧
    (∀ fault progress, expandUnder registry tracing frame form low = (.error fault, progress) →
      ¬ fault.IsLimit → low.depth ≤ high.depth →
        expandUnder registry tracing frame form high = (.error fault, progress)) := by
  have hfollows := expandUnder_follows registry tracing frame form hle
  have hstart : ({} : Progress).deepest ≤ high.depth := Nat.zero_le _
  refine ⟨fun out progress hrun => ⟨?_, ?_⟩, ?_⟩
  · intro hdeep
    exact hfollows.within hstart hrun hdeep
  · intro hdeep
    exact hfollows.beyond hstart hrun hdeep
  · intro fault progress hrun hlimit hdepth
    have hstays := Settings.expand_stays ⟨registry, low, tracing⟩ low.depth 0 frame form {}
      (Nat.zero_le (0 + low.depth))
    have hdeep : progress.deepest ≤ 0 + low.depth := by
      rw [show progress = (expandUnder registry tracing frame form low).2 by rw [hrun]]
      exact hstays
    exact hfollows.fault hstart hrun hlimit (by omega)

/-- A rule that wraps its argument and one that always fails. -/
def wrapAndFail : Registry :=
  (Registry.empty.install
    [{ name := ":wrap", action := .template (.list [.symbol "run", .symbol "$1"]) },
     { name := ":fail", action := .fail ":fail" "never" }]).2

theorem expandUnder_limits_of_wrap :
    (∃ progress,
      expandUnder wrapAndFail true .empty (.call ":wrap" [.call ":wrap" []]) {} =
        (.ok (.call "run" [.call "run" [.nil]]), progress) ∧
      expandUnder wrapAndFail true .empty (.call ":wrap" [.call ":wrap" []]) ⟨3, 2000⟩ =
        (.ok (.call "run" [.call "run" [.nil]]), progress)) ∧
    (expandUnder wrapAndFail true .empty (.call ":wrap" [.call ":wrap" []]) ⟨2, 2000⟩).1 =
      .error (.nestedTooDeep 2) ∧
    (expandUnder wrapAndFail true .empty (.call "f" [.call ":fail" []]) ⟨300, 2000⟩).1 =
      .error (.badArgument ":fail" "never") := by
  have hok : expandUnder wrapAndFail true .empty (.call ":wrap" [.call ":wrap" []]) {} =
      (.ok (.call "run" [.call "run" [.nil]]),
        (expandUnder wrapAndFail true .empty (.call ":wrap" [.call ":wrap" []]) {}).2) := by
    rfl
  have hdeepest : (expandUnder wrapAndFail true .empty
      (.call ":wrap" [.call ":wrap" []]) {}).2.deepest = 3 := by
    rfl
  have hfault : expandUnder wrapAndFail true .empty (.call "f" [.call ":fail" []]) {} =
      (.error (.badArgument ":fail" "never"),
        (expandUnder wrapAndFail true .empty (.call "f" [.call ":fail" []]) {}).2) := by
    rfl
  have hthree := expandUnder_limits wrapAndFail true .empty (.call ":wrap" [.call ":wrap" []])
    {} ⟨3, 2000⟩ (by decide)
  have htwo := expandUnder_limits wrapAndFail true .empty (.call ":wrap" [.call ":wrap" []])
    {} ⟨2, 2000⟩ (by decide)
  have hmore := expandUnder_limits wrapAndFail true .empty (.call "f" [.call ":fail" []])
    {} ⟨300, 2000⟩ (by decide)
  refine ⟨⟨_, hok, (hthree.1 _ _ hok).1 (Nat.le_of_eq hdeepest)⟩, ?_, ?_⟩
  · exact (htwo.1 _ _ hok).2 (by rw [hdeepest]; decide)
  · rw [hmore.2 _ _ hfault (fun h => h) (by decide)]

end Rulebook
