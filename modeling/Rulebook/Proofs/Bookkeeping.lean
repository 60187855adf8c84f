import Mathlib.Algebra.GroupWithZero.Nat
import Mathlib.Data.List.Nodup
import Rulebook.Proofs.History
import Rulebook.Proofs.Watching

/-!
# The counters of an expander

An expander keeps one set of counters for all the requests it serves, the failed
ones included. That the counters fit together is no matter of the requests: what
each adds is determined by its logs, one for each run it is served by, and so is
what a whole history adds. The rest is counting. A tally that is incremented once
for each completed application has one entry to a rule, with the number of its
applications.
-/

namespace Rulebook

/-! ## Tallies -/

namespace Tally

theorem sum_increment (id : String) (tally : List (String × Nat)) :
    ((increment id tally).map Prod.snd).sum = (tally.map Prod.snd).sum + 1 := by
  induction tally with
  | nil => rfl
  | cons entry tally ih =>
      rw [increment]
      split
      · simp only [List.map_cons, List.sum_cons]
        omega
      · simp only [List.map_cons, List.sum_cons, ih]
        omega

/-- Of the names in a tally the one that is incremented comes last if it is new. -/
theorem names_increment (id : String) (tally : List (String × Nat)) :
    (increment id tally).map Prod.fst =
      if id ∈ tally.map Prod.fst then tally.map Prod.fst else tally.map Prod.fst ++ [id] := by
  induction tally with
  | nil => rfl
  | cons entry tally ih =>
      rw [increment]
      split
      · next heq => simp [heq]
      · next hne =>
          have : id ≠ entry.1 := fun h => hne h.symm
          simp only [List.map_cons, ih, List.mem_cons, this, false_or]
          split <;> rfl

theorem positive_increment {id : String} {tally : List (String × Nat)}
    (h : ∀ entry ∈ tally, 0 < entry.2) : ∀ entry ∈ increment id tally, 0 < entry.2 := by
  induction tally with
  | nil => simp [increment]
  | cons first tally ih =>
      rw [List.forall_mem_cons] at h
      rw [increment]
      split
      · exact List.forall_mem_cons.mpr ⟨Nat.succ_pos _, h.2⟩
      · exact List.forall_mem_cons.mpr ⟨h.1, ih h.2⟩

/-- `Counts log tally`: the tally has one entry to each rule in the log, with the
number of its entries there. -/
structure Counts (log tally : List (String × Nat)) : Prop where
  sum : (tally.map Prod.snd).sum = log.length
  count : ∀ id, (tally.lookup id).getD 0 = (log.map Prod.fst).count id
  distinct : (tally.map Prod.fst).Nodup
  positive : ∀ entry ∈ tally, 0 < entry.2
  named : ∀ id ∈ tally.map Prod.fst, id ∈ log.map Prod.fst

theorem Counts.nil : Counts [] [] := ⟨rfl, fun _ => rfl, .nil, by simp, by simp⟩

theorem Counts.increment {log tally : List (String × Nat)} (h : Counts log tally)
    (entry : String × Nat) : Counts (log ++ [entry]) (increment entry.1 tally) where
  sum := by rw [sum_increment, h.sum, List.length_append, List.length_singleton]
  count id := by
    rw [lookup_increment, h.count, List.map_append, List.count_append]
    by_cases hid : id = entry.1
    · simp [hid]
    · simp [hid, Ne.symm hid]
  distinct := by
    rw [names_increment]
    split
    · exact h.distinct
    · next hnew =>
        rw [← List.concat_eq_append]
        exact List.Nodup.concat hnew h.distinct
  positive := positive_increment h.positive
  named := by
    rw [names_increment]
    intro id hid
    rw [List.map_append, List.mem_append]
    split at hid
    · exact .inl (h.named id hid)
    · rcases List.mem_append.mp hid with hid | hid
      · exact .inl (h.named id hid)
      · exact .inr hid

theorem Counts.foldl {log tally : List (String × Nat)} (h : Counts log tally)
    (later : List (String × Nat)) :
    Counts (log ++ later)
      (later.foldl (fun tally entry => Tally.increment entry.1 tally) tally) := by
  induction later generalizing log tally with
  | nil => simpa using h
  | cons entry later ih =>
      have := ih (h.increment entry)
      rwa [List.append_assoc] at this

end Tally

/-! ## Requests -/

namespace Expander

/-- The surroundings in which requests are served with their applications marked. -/
def markedScene (expander : Expander) : Scene :=
  Marked.scene expander.settings.registry expander.settings.limits expander.depth expander.frame

/-- What happens in a run: the log of the same run with its applications marked. -/
def log {α : Type} (expander : Expander) (operate : Scene → Run α) : List (String × Nat) :=
  ((operate expander.markedScene).perform expander.progress.silent).2.trace.toList

/-- The expander without a trace. -/
def silent (expander : Expander) : Expander :=
  { expander with settings := expander.settings.silent, progress := expander.progress.silent }

end Expander

mutual

/-- What happens while a request is served, run by run. -/
def Request.logs (expander : Expander) : Request → List (List (String × Nat))
  | .expand form => [expander.log fun scene => scene.expandIn scene.frame form]
  | .expandAll forms => [expander.log (·.expandAll forms)]
  | .expandBody forms => [expander.log (·.expandBody forms)]
  | .enter scope targets body => [expander.log (·.enter scope targets body)]
  | .deduce key => [expander.log (·.deduce key)]
  | .exit value => [expander.log (·.exit value)]
  | .apply id args =>
    match expander.settings.registry.find? id with
    | some entry => [expander.log fun scene => entry.apply scene.means args]
    | none => []
  | .within frame requests => Request.logsOf { expander with frame } requests

/-- What happens while requests are served in order. -/
def Request.logsOf (expander : Expander) : List Request → List (List (String × Nat))
  | [] => []
  | request :: requests =>
    request.logs expander ++ Request.logsOf (request.serve expander).2 requests

end

/-- What is done with an expander is booked as its logs say, and would be the same
without a trace. -/
structure Accounted {α : Type} (act : Expander → α × Expander)
    (logs : Expander → List (List (String × Nat))) : Prop where
  memoryless : Memoryless act
  silent : ∀ expander : Expander,
    act expander.silent = ((act expander).1, (act expander).2.silent)
  books : ∀ expander : Expander,
    expander.progress.Books expander.settings (logs expander).flatten (act expander).2.progress
  brokenOff : ∀ expander : Expander, ∀ log ∈ logs expander,
    BrokenOff expander.settings.registry log

namespace Accounted

variable {α β γ : Type} {act : Expander → α × Expander}
  {logs later : Expander → List (List (String × Nat))}

theorem pure (value : α) :
    Accounted (fun expander => (value, expander)) fun _ => [] where
  memoryless := .pure value
  silent _ := rfl
  books expander := .refl expander.settings expander.progress
  brokenOff _ _ hlog := absurd hlog List.not_mem_nil

/-- One run carried out, whatever it does through its scene. -/
theorem carry {serve : Expander → Except Fault Reply × Expander} {operate : Scene → Run α}
    {reply : α → Reply}
    (hserve : ∀ expander, serve expander = expander.carry (reply <$> operate expander.scene))
    (h : ∀ {pairing : Pairing} {scene other : Scene}, pairing.Scenes scene other →
      pairing.holds (operate scene) (operate other)) :
    Accounted serve fun expander => [expander.log operate] := by
  have hpaired : ∀ expander : Expander, (Pairing.watched expander.settings expander.depth 0).holds
      (reply <$> operate expander.scene) (reply <$> operate expander.markedScene) := by
    intro expander
    rw [map_eq_pure_bind, map_eq_pure_bind]
    refine Pairing.bind _ (h ?_) fun _ => Pairing.pure _ _
    exact Pairing.watched_scenes expander.settings expander.depth expander.frame
  have hwatched : ∀ expander : Expander,
      Watched expander.settings expander.depth expander.progress #[]
        ((reply <$> operate expander.scene).perform expander.progress)
        ((reply <$> operate expander.markedScene).perform expander.progress.silent)
        (expander.log operate) := by
    intro expander
    obtain ⟨log, hlog⟩ := hpaired expander expander.progress #[] (Nat.zero_le _)
    have hafter := congrArg (·.2.trace.toList) hlog.marked
    rw [Run.perform_map] at hafter
    have heq : expander.log operate = log := hafter.trans (by simp [Progress.withTrace])
    rw [heq]
    exact hlog
  refine ⟨.carry hserve fun hscene => h hscene, fun expander => ?_, fun expander => ?_, ?_⟩
  · have hsame := Pairing.watched_silent (hpaired expander) (hpaired expander.silent)
      expander.progress
    rw [hserve, hserve]
    exact congrArg (fun ended => (ended.1, { expander.silent with progress := ended.2 })) hsame
  · rw [hserve, List.flatten_singleton]
    exact (hwatched expander).books
  · intro expander log hlog
    rw [List.mem_singleton.mp hlog]
    exact (hwatched expander).ends.brokenOff

/-- What is done may depend on the registry, which stays the same. -/
theorem of_registry
    (h : ∀ registry, ∃ other others, Accounted other others ∧
      ∀ expander : Expander, expander.settings.registry = registry →
        act expander = other expander ∧ logs expander = others expander) :
    Accounted act logs := by
  refine ⟨.of_settings fun settings => ?_, fun expander => ?_, fun expander => ?_,
    fun expander => ?_⟩
  · obtain ⟨other, others, hother, heq⟩ := h settings.registry
    exact ⟨other, hother.memoryless, by rintro expander rfl; exact (heq expander rfl).1⟩
  all_goals obtain ⟨other, others, hother, heq⟩ := h expander.settings.registry
  · rw [(heq expander rfl).1, (heq expander.silent rfl).1, hother.silent]
  · rw [(heq expander rfl).1, (heq expander rfl).2]
    exact hother.books expander
  · rw [(heq expander rfl).2]
    exact hother.brokenOff expander

theorem map (h : Accounted act logs) (f : α → β) :
    Accounted (fun expander => (f (act expander).1, (act expander).2)) logs where
  memoryless := h.memoryless.map f
  silent expander := by rw [h.silent]
  books := h.books
  brokenOff := h.brokenOff

/-- Something done in another context, which is then taken back. -/
theorem within (h : Accounted act logs) (frame : Frame) :
    Accounted
      (fun expander =>
        ((act { expander with frame }).1,
          { (act { expander with frame }).2 with frame := expander.frame }))
      fun expander => logs { expander with frame } where
  memoryless := h.memoryless.within frame
  silent expander :=
    congrArg (fun ended => (ended.1, { ended.2 with frame := expander.frame }))
      (h.silent { expander with frame })
  books expander := h.books { expander with frame }
  brokenOff expander := h.brokenOff { expander with frame }

/-- One thing done after another. -/
theorem follow {next : Expander → β × Expander} (h : Accounted act logs)
    (hnext : Accounted next later) (f : α → β → γ) :
    Accounted
      (fun expander =>
        (f (act expander).1 (next (act expander).2).1, (next (act expander).2).2))
      fun expander => logs expander ++ later (act expander).2 where
  memoryless := h.memoryless.follow hnext.memoryless f
  silent expander := by rw [h.silent, hnext.silent]
  books expander := by
    have hlater := hnext.books (act expander).2
    rw [h.memoryless.settings] at hlater
    rw [List.flatten_append]
    exact (h.books expander).trans hlater
  brokenOff expander log hlog := by
    rcases List.mem_append.mp hlog with hlog | hlog
    · exact h.brokenOff expander log hlog
    · rw [← h.memoryless.settings]
      exact hnext.brokenOff (act expander).2 log hlog

end Accounted

namespace Request

theorem accounted_apply (id : String) (args : List Form) :
    Accounted (fun expander => (Request.apply id args).serve expander)
      fun expander => (Request.apply id args).logs expander := by
  refine .of_registry fun registry => ?_
  cases hfind : registry.find? id with
  | some entry =>
      refine ⟨fun expander => expander.carry (.form <$> entry.apply expander.scene.means args), _,
        .carry (fun _ => rfl) fun h => h.apply entry args, ?_⟩
      rintro expander rfl
      simp only [serve_apply expander hfind, logs, hfind, and_self]
  | none =>
      refine ⟨_, _, .pure (.ok .noRule), ?_⟩
      rintro expander rfl
      simp only [serve, logs, hfind, and_self]

mutual

theorem accounted_serve : (request : Request) →
    Accounted (fun expander => request.serve expander) fun expander => request.logs expander
  | .expand form => .carry (serve_expand · form) fun h => h.expandIn h.frame form
  | .expandAll forms => .carry (serve_expandAll · forms) fun h => h.expandAll forms
  | .expandBody forms => .carry (serve_expandBody · forms) fun h => h.expandBody forms
  | .enter scope targets body =>
      .carry (serve_enter · scope targets body) fun h => h.enter scope targets body
  | .deduce key => .carry (serve_deduce · key) fun h => h.deduce key
  | .exit value => .carry (serve_exit · value) fun h => h.exit value
  | .apply id args => accounted_apply id args
  | .within frame requests =>
      ((accounted_serveAll requests).within frame).map fun replies =>
        Except.ok (Reply.replies replies)

theorem accounted_serveAll : (requests : List Request) →
    Accounted (fun expander => serveAll expander requests)
      fun expander => logsOf expander requests
  | [] => .pure []
  | request :: requests =>
      (accounted_serve request).follow (accounted_serveAll requests) List.cons

end

/-- However an expander was used, its counters fit together. There were as many
replacements as the tally adds up to, and as the trace has entries; the tally of
a rule is the number of its entries in the trace, and every rule in the tally is
known and made a replacement. The levels in the trace were reached, and no level
was reached that the limits forbid. The trace is what was completed, in order: in
the log of each run, what was completed inside an application stands before the
entry of that application and is further down. Without a trace all replies and
all other counters are the same. -/
theorem counters_after_history (registry : Registry) (limits : Limits) (frame : Frame)
    (history : List Request) :
    let expander : Expander := { settings := { registry, limits, tracing := true }, frame }
    let silent : Expander := { settings := { registry, limits, tracing := false }, frame }
    let after := (serveAll expander history).2.progress
    after.replacements = (after.tally.map Prod.snd).sum ∧
    after.replacements = after.trace.size ∧
    (∀ id, after.countOf id = (after.trace.toList.map Prod.fst).count id) ∧
    (after.tally.map Prod.fst).Nodup ∧
    (∀ id count, (id, count) ∈ after.tally → registry.contains id ∧ 0 < count) ∧
    (∀ id depth, (id, depth) ∈ after.trace → 1 ≤ depth ∧ depth ≤ after.deepest) ∧
    after.deepest ≤ limits.depth ∧
    after.trace.toList = completed (logsOf expander history).flatten ∧
    (∀ log ∈ logsOf expander history, BrokenOff registry log) ∧
    (serveAll silent history).1 = (serveAll expander history).1 ∧
    (serveAll silent history).2.progress = after.silent := by
  intro expander silent after
  have haccounted := accounted_serveAll history
  have hbooks := haccounted.books expander
  have hbroken := haccounted.brokenOff expander
  have htrace : after.trace.toList = completed (logsOf expander history).flatten := hbooks.trace
  have hcounts : Tally.Counts after.trace.toList after.tally := by
    rw [htrace, show after.tally = _ from hbooks.tally]
    exact Tally.Counts.nil.foldl _
  have hlength : after.replacements = after.trace.toList.length := by
    rw [htrace, show after.replacements = _ from hbooks.replacements]
    exact Nat.zero_add _
  have hlogged : ∀ entry ∈ after.trace.toList,
      0 < entry.2 ∧ ∃ log ∈ logsOf expander history, entry ∈ log := by
    intro entry hentry
    rw [htrace] at hentry
    obtain ⟨hlog, hpos⟩ := List.mem_filter.mp hentry
    exact ⟨of_decide_eq_true hpos, List.mem_flatten.mp hlog⟩
  have hsilent : serveAll silent history =
      ((serveAll expander history).1, (serveAll expander history).2.silent) :=
    haccounted.silent expander
  refine ⟨hlength.trans hcounts.sum.symm, hlength, hcounts.count, hcounts.distinct, ?_, ?_, ?_,
    htrace, hbroken, by rw [hsilent], by rw [hsilent]; rfl⟩
  · intro id count hmem
    refine ⟨?_, hcounts.positive _ hmem⟩
    obtain ⟨entry, hentry, rfl⟩ :=
      List.mem_map.mp (hcounts.named id (List.mem_map.mpr ⟨_, hmem, rfl⟩))
    obtain ⟨-, log, hlog, hentry⟩ := hlogged entry hentry
    exact (hbroken log hlog).contains entry hentry
  · intro id depth hmem
    obtain ⟨hpos, hlog⟩ := hlogged _ (Array.mem_toList_iff.mpr hmem)
    exact ⟨hpos, hbooks.levels _ (List.mem_flatten.mpr hlog)⟩
  · exact Nat.le_trans hbooks.stays (Nat.max_le.mpr ⟨Nat.zero_le _, Nat.le_refl _⟩)

/-- A rule that expands its arguments and one that drops them. -/
def expandAndDrop : Registry :=
  (Registry.empty.install
    [{ name := ":each", action := .body }, { name := ":drop", action := .template .nil }]).2

/-- The second request is broken off in the middle of its first application. -/
example : logsOf { settings := { registry := expandAndDrop, limits := { depth := 2 } } }
    [.expand (.call ":each" [.call ":drop" [], .call ":drop" []]),
      .expand (.call ":each" [.call ":drop" [], .call ":each" [.call ":drop" []]])] =
    [[(":each", 0), (":drop", 0), (":drop", 2), (":drop", 0), (":drop", 2), (":each", 1)],
      [(":each", 0), (":drop", 0), (":drop", 2), (":each", 0)]] := by
  rfl

end Request

end Rulebook
