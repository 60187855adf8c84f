import Rulebook.Proofs.Restoration

/-!
# An expander has no memory

An expander puts back its level and its context, so all that it carries from one
request to the next is its progress. No step of a run looks at the progress;
steps only add to it. So a run that starts late and the same run started afresh
walk together. They end alike, and at every point the progress of the first is
the progress it started from joined with that of the second.

Requests are put together from runs in three ways: one is carried out, one
follows another, and some are served in another context. Each way keeps it so
that a request served late is the request served afresh, in the same context,
with the counters added up.
-/

namespace Rulebook

/-! ## Joined progress -/

theorem Tally.lookup_increment (id other : String) (tally : List (String × Nat)) :
    ((increment id tally).lookup other).getD 0 =
      (tally.lookup other).getD 0 + if other = id then 1 else 0 := by
  induction tally with
  | nil =>
      by_cases h : other = id
      · simp [increment, h]
      · have happart : (other == id) = false := by simpa using h
        simp [increment, List.lookup_cons, h, happart]
  | cons entry tally ih =>
      obtain ⟨first, count⟩ := entry
      by_cases h : other = first
      · subst h
        by_cases hid : other = id <;> simp [increment, hid]
      · have happart : (other == first) = false := by simpa using h
        rw [increment]
        split
        · next hfirst =>
            rw [List.lookup_cons, List.lookup_cons, happart, if_neg (hfirst ▸ h)]
            rfl
        · rw [List.lookup_cons, List.lookup_cons, happart]
          exact ih

namespace Progress

/-- `Joins before fresh after`: what has happened in `after` is what had happened
in `before` and, after that, what happened in `fresh`. -/
structure Joins (before fresh after : Progress) : Prop where
  guarded : after.guarded = (before.guarded || fresh.guarded)
  replacements : after.replacements = before.replacements + fresh.replacements
  deepest : after.deepest = max before.deepest fresh.deepest
  countOf : ∀ id, after.countOf id = before.countOf id + fresh.countOf id
  trace : after.trace = before.trace ++ fresh.trace

namespace Joins

variable {before fresh after : Progress}

theorem start (before : Progress) : Joins before {} before where
  guarded := (Bool.or_false _).symm
  replacements := rfl
  deepest := (Nat.max_zero _).symm
  countOf _ := rfl
  trace := Array.append_empty.symm

theorem guard (h : Joins before fresh after) : Joins before fresh.guard after.guard :=
  { h with guarded := (Bool.or_true _).symm }

theorem reach (h : Joins before fresh after) (depth : Nat) :
    Joins before (fresh.reach depth) (after.reach depth) :=
  { h with deepest := by rw [Progress.reach, Progress.reach, h.deepest, Nat.max_assoc] }

theorem record (h : Joins before fresh after) (tracing : Bool) (id : String) (depth : Nat) :
    Joins before (fresh.record tracing id depth) (after.record tracing id depth) where
  guarded := h.guarded
  replacements := by
    simp only [Progress.record, h.replacements]
    omega
  deepest := h.deepest
  countOf other := by
    have hcount := h.countOf other
    simp only [Progress.countOf, Progress.record, Tally.lookup_increment] at hcount ⊢
    omega
  trace := by
    simp only [Progress.record, h.trace]
    split
    · exact Array.push_append
    · rfl

theorem assoc {first second both third rest whole : Progress} (h : Joins first second both)
    (hrest : Joins second third rest) (hwhole : Joins both third whole) :
    Joins first rest whole where
  guarded := by rw [hwhole.guarded, h.guarded, hrest.guarded, Bool.or_assoc]
  replacements := by rw [hwhole.replacements, h.replacements, hrest.replacements, Nat.add_assoc]
  deepest := by rw [hwhole.deepest, h.deepest, hrest.deepest, Nat.max_assoc]
  countOf id := by rw [hwhole.countOf, h.countOf, hrest.countOf, Nat.add_assoc]
  trace := by rw [hwhole.trace, h.trace, hrest.trace, Array.append_assoc]

end Joins

end Progress

/-! ## Runs started late -/

/-- The first run, started late, ends as the second does, and its progress stays
joined to what it started from. -/
def Pairing.late (before : Progress) : Pairing where
  holds first second := ∀ fresh after, Progress.Joins before fresh after →
    (first.perform after).1 = (second.perform fresh).1 ∧
      Progress.Joins before (second.perform fresh).2 (first.perform after).2
  pure _ _ _ h := ⟨rfl, h⟩
  throw _ _ _ h := ⟨rfl, h⟩
  guard _ _ h := ⟨rfl, h.guard⟩
  bind := by
    intro α β first second next other hfirst hnext fresh after h
    obtain ⟨hresult, hjoins⟩ := hfirst fresh after h
    rw [Run.perform_bind, Run.perform_bind]
    rcases hone : first.perform after with ⟨result, later⟩
    rcases htwo : second.perform fresh with ⟨result', fresher⟩
    rw [hone, htwo] at hresult hjoins
    dsimp only at hresult
    subst hresult
    cases result with
    | ok value => exact hnext value fresher later hjoins
    | error fault => exact ⟨rfl, hjoins⟩

theorem Pairing.late_scenes (before : Progress) (expander : Expander) :
    (Pairing.late before).Scenes expander.scene expander.scene where
  registry := rfl
  frame := .refl expander.frame
  expandIn hframe form :=
    (Pairing.late before).expand expander.settings _ _ (fun _ _ _ _ _ h => ⟨rfl, h.reach _⟩)
      (fun _ _ _ _ _ _ h => ⟨rfl, h.record _ _ _⟩) hframe form

/-! ## Requests -/

/-- The expander before anything happened in it. -/
def Expander.fresh (expander : Expander) : Expander := { expander with progress := {} }

/-- What is done with an expander does not depend on what was done before, leaves
its context and its level as they were and is added to its progress. -/
structure Memoryless {α : Type} (act : Expander → α × Expander) : Prop where
  result : ∀ expander, (act expander).1 = (act expander.fresh).1
  settings : ∀ expander, (act expander).2.settings = expander.settings
  frame : ∀ expander, (act expander).2.frame = expander.frame
  depth : ∀ expander, (act expander).2.depth = expander.depth
  progress : ∀ expander, Progress.Joins expander.progress (act expander.fresh).2.progress
    (act expander).2.progress

namespace Memoryless

variable {α β γ : Type} {act : Expander → α × Expander}

theorem pure (value : α) : Memoryless fun expander => (value, expander) where
  result _ := rfl
  settings _ := rfl
  frame _ := rfl
  depth _ := rfl
  progress expander := .start expander.progress

/-- One run carried out, whatever it does through its scene. -/
theorem carry {serve : Expander → Except Fault Reply × Expander} {operate : Scene → Run α}
    {reply : α → Reply}
    (hserve : ∀ expander, serve expander = expander.carry (reply <$> operate expander.scene))
    (h : ∀ {pairing : Pairing} {scene : Scene}, pairing.Scenes scene scene →
      pairing.holds (operate scene) (operate scene)) :
    Memoryless serve := by
  have hlate : ∀ expander : Expander, (Pairing.late expander.progress).holds
      (reply <$> operate expander.scene) (reply <$> operate expander.scene) := by
    intro expander
    rw [map_eq_pure_bind]
    refine (Pairing.late _).bind (h ?_) fun _ => (Pairing.late _).pure _
    exact Pairing.late_scenes _ expander
  rw [funext hserve]
  refine ⟨fun expander => ?_, fun _ => rfl, fun _ => rfl, fun _ => rfl, fun expander => ?_⟩
  · exact (hlate expander {} expander.progress (.start _)).1
  · exact (hlate expander {} expander.progress (.start _)).2

/-- What is done may depend on the settings, which stay the same. -/
theorem of_settings
    (h : ∀ settings, ∃ other, Memoryless other ∧
      ∀ expander : Expander, expander.settings = settings → act expander = other expander) :
    Memoryless act := by
  refine ⟨fun expander => ?_, fun expander => ?_, fun expander => ?_, fun expander => ?_,
    fun expander => ?_⟩
  all_goals obtain ⟨other, hother, heq⟩ := h expander.settings
  · rw [heq expander rfl, heq expander.fresh rfl, hother.result]
  · rw [heq expander rfl, hother.settings]
  · rw [heq expander rfl, hother.frame]
  · rw [heq expander rfl, hother.depth]
  · rw [heq expander rfl, heq expander.fresh rfl]
    exact hother.progress expander

theorem map (h : Memoryless act) (f : α → β) :
    Memoryless fun expander => (f (act expander).1, (act expander).2) where
  result expander := congrArg f (h.result expander)
  settings := h.settings
  frame := h.frame
  depth := h.depth
  progress := h.progress

/-- Something done in another context, which is then taken back. -/
theorem within (h : Memoryless act) (frame : Frame) :
    Memoryless fun expander =>
      ((act { expander with frame }).1,
        { (act { expander with frame }).2 with frame := expander.frame }) where
  result expander := h.result { expander with frame }
  settings expander := h.settings { expander with frame }
  frame _ := rfl
  depth expander := h.depth { expander with frame }
  progress expander := h.progress { expander with frame }

theorem fresh_eq (h : Memoryless act) (expander : Expander) :
    (act expander).2.fresh = expander.fresh := by
  rw [Expander.fresh, Expander.fresh, h.settings, h.frame, h.depth]

/-- One thing done after another. -/
theorem follow {next : Expander → β × Expander} (h : Memoryless act) (hnext : Memoryless next)
    (f : α → β → γ) :
    Memoryless fun expander =>
      (f (act expander).1 (next (act expander).2).1, (next (act expander).2).2) where
  result expander := by
    have hsecond : (next (act expander).2).1 = (next (act expander.fresh).2).1 := by
      rw [hnext.result, hnext.result (act expander.fresh).2, h.fresh_eq, h.fresh_eq]
      rfl
    dsimp only
    rw [hsecond, h.result]
  settings expander := (hnext.settings _).trans (h.settings expander)
  frame expander := (hnext.frame _).trans (h.frame expander)
  depth expander := (hnext.depth _).trans (h.depth expander)
  progress expander := by
    have hlate := hnext.progress (act expander).2
    have hfresh := hnext.progress (act expander.fresh).2
    rw [h.fresh_eq] at hlate hfresh
    exact (h.progress expander).assoc hfresh hlate

end Memoryless

namespace Request

theorem memoryless_apply (id : String) (args : List Form) :
    Memoryless fun expander => (Request.apply id args).serve expander := by
  refine .of_settings fun settings => ?_
  cases hfind : settings.registry.find? id with
  | some entry =>
      refine ⟨fun expander => expander.carry (.form <$> entry.apply expander.scene.means args),
        .carry (fun _ => rfl) fun h => h.apply entry args, ?_⟩
      rintro expander rfl
      exact serve_apply expander hfind args
  | none =>
      refine ⟨_, .pure (.ok .noRule), ?_⟩
      rintro expander rfl
      simp only [serve, hfind]

mutual

theorem memoryless_serve : (request : Request) → Memoryless fun expander => request.serve expander
  | .expand form => .carry (serve_expand · form) fun h => h.expandIn h.frame form
  | .expandAll forms => .carry (serve_expandAll · forms) fun h => h.expandAll forms
  | .expandBody forms => .carry (serve_expandBody · forms) fun h => h.expandBody forms
  | .enter scope targets body =>
      .carry (serve_enter · scope targets body) fun h => h.enter scope targets body
  | .deduce key => .carry (serve_deduce · key) fun h => h.deduce key
  | .exit value => .carry (serve_exit · value) fun h => h.exit value
  | .apply id args => memoryless_apply id args
  | .within frame requests =>
      ((memoryless_serveAll requests).within frame).map fun replies =>
        Except.ok (Reply.replies replies)

theorem memoryless_serveAll : (requests : List Request) → Memoryless fun expander =>
    serveAll expander requests
  | [] => .pure []
  | request :: requests =>
      (memoryless_serve request).follow (memoryless_serveAll requests) List.cons

end

/-- Served in order, requests get the replies they get from a fresh expander each. -/
theorem replies_serveAll (expander : Expander) (requests : List Request) :
    (serveAll expander requests).1 =
      requests.map fun request => (request.serve expander.fresh).1 := by
  induction requests generalizing expander with
  | nil => rfl
  | cons request requests ih =>
      have hfirst := memoryless_serve request
      show (request.serve expander).1 :: (serveAll (request.serve expander).2 requests).1 = _
      rw [ih, hfirst.fresh_eq, hfirst.result, List.map_cons]

/-- After any history, of requests that succeeded and requests that failed, an
expander is at the level and in the context where it was. A request then gets the
reply that it gets from a fresh expander there; requests to be served in another
context get the replies, one by one, that they get from a fresh expander in that
one. Served or failed, a request leaves the level and the context as they were and
adds to the counters what it takes afresh. -/
theorem serve_after_history (expander : Expander) (history : List Request) (request : Request) :
    let reached := (serveAll expander history).2
    reached.frame = expander.frame ∧ reached.depth = expander.depth ∧
    (request.serve reached).1 = (request.serve expander.fresh).1 ∧
    (∀ frame requests, ((Request.within frame requests).serve reached).1 =
      .ok (.replies (requests.map fun nested =>
        (nested.serve
          { settings := expander.settings, frame, depth := expander.depth }).1))) ∧
    (request.serve reached).2.frame = reached.frame ∧
    (request.serve reached).2.depth = reached.depth ∧
    Progress.Joins reached.progress (request.serve expander.fresh).2.progress
      (request.serve reached).2.progress := by
  intro reached
  have hhistory := memoryless_serveAll history
  have hserve := memoryless_serve request
  have hfresh : reached.fresh = expander.fresh := hhistory.fresh_eq expander
  refine ⟨hhistory.frame expander, hhistory.depth expander, ?_, fun frame requests => ?_,
    hserve.frame reached, hserve.depth reached, ?_⟩
  · rw [hserve.result, hfresh]
  · rw [(memoryless_serve _).result, hfresh]
    exact congrArg (fun replies => Except.ok (Reply.replies replies))
      (replies_serveAll { expander.fresh with frame } requests)
  · rw [← hfresh]
    exact hserve.progress reached

end Request

end Rulebook
