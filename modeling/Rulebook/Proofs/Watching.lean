import Rulebook.Proofs.Lockstep

/-!
# Runs with their applications marked

The trace tells when an application was complete but not when it began, so what
happened inside an application cannot be read off it. Here expansion is carried
out once more with a mark put down before each application: an entry at level
zero, where no rule is applied. What such a run leaves is its log.

The marks change nothing. A plain run and the marked one walk together, end
alike and count alike, and the plain trace is the log without its marks, if a
trace is kept, and empty otherwise. What a plain run adds to its counters is
therefore a function of the log, and everything about the counters follows from
how a log is built: an application puts down its mark, then all that happens
inside it further down, then its entry, unless a fault breaks it off.
-/

namespace Rulebook

/-! ## Logs -/

/-- The entries of the applications that were completed. -/
def completed (log : List (String × Nat)) : List (String × Nat) := log.filter (0 < ·.2)

theorem completed_append (log later : List (String × Nat)) :
    completed (log ++ later) = completed log ++ completed later := List.filter_append ..

theorem completed_entry {depth : Nat} (h : 0 < depth) (id : String) (log : List (String × Nat)) :
    completed ((id, depth) :: log) = (id, depth) :: completed log := by
  simp [completed, h]

/-- `Nested registry log`: in `log` one application of a rule of the registry
follows another, and each is complete. Between its mark and its entry stands
what happened inside it, and everything completed there is further down. -/
inductive Nested (registry : Registry) : List (String × Nat) → Prop
  | nil : Nested registry []
  | application {id : String} {depth : Nat} {inside later : List (String × Nat)}
      (known : registry.contains id) (level : 0 < depth) (within : Nested registry inside)
      (deeper : ∀ entry ∈ completed inside, depth < entry.2) (after : Nested registry later) :
      Nested registry ((id, 0) :: inside ++ (id, depth) :: later)

/-- `BrokenOff registry log`: the same up to an application that has a mark and no
entry, and inside of it up to another such application, and so on. -/
inductive BrokenOff (registry : Registry) : List (String × Nat) → Prop
  | between {log : List (String × Nat)} (before : Nested registry log) : BrokenOff registry log
  | within {id : String} {log inside : List (String × Nat)} (known : registry.contains id)
      (before : Nested registry log) (broken : BrokenOff registry inside) :
      BrokenOff registry (log ++ (id, 0) :: inside)

theorem Nested.append {registry : Registry} {log later : List (String × Nat)}
    (h : Nested registry log) (hlater : Nested registry later) :
    Nested registry (log ++ later) := by
  induction h with
  | nil => exact hlater
  | application known level within deeper after _ ih =>
      rw [List.append_assoc, List.cons_append]
      exact .application known level within deeper ih

theorem Nested.brokenOff {registry : Registry} {log later : List (String × Nat)}
    (h : Nested registry log) (hlater : BrokenOff registry later) :
    BrokenOff registry (log ++ later) := by
  cases hlater with
  | between before => exact .between (h.append before)
  | within known before broken =>
      rw [← List.append_assoc]
      exact .within known (h.append before) broken

theorem Nested.contains {registry : Registry} {log : List (String × Nat)}
    (h : Nested registry log) : ∀ entry ∈ log, registry.contains entry.1 := by
  induction h with
  | nil => simp
  | application known level within deeper after ihInside ihLater =>
      simp only [List.mem_append, List.mem_cons]
      rintro entry ((rfl | hentry) | rfl | hentry)
      · exact known
      · exact ihInside entry hentry
      · exact known
      · exact ihLater entry hentry

theorem BrokenOff.contains {registry : Registry} {log : List (String × Nat)}
    (h : BrokenOff registry log) : ∀ entry ∈ log, registry.contains entry.1 := by
  induction h with
  | between before => exact before.contains
  | within known before broken ih =>
      simp only [List.mem_append, List.mem_cons]
      rintro entry (hentry | rfl | hentry)
      · exact before.contains entry hentry
      · exact known
      · exact ih entry hentry

/-- How the log of a run ends: after an application, or in the middle of one that
a fault broke off. -/
def Nested.Until {α : Type} (registry : Registry) (log : List (String × Nat)) :
    Except Fault α → Prop
  | .ok _ => Nested registry log
  | .error _ => BrokenOff registry log

theorem Nested.Until.brokenOff {α : Type} {registry : Registry} {log : List (String × Nat)}
    {result : Except Fault α} (h : Nested.Until registry log result) :
    BrokenOff registry log := by
  cases result with
  | ok value => exact .between h
  | error fault => exact h

theorem Nested.until {α : Type} {registry : Registry} {log later : List (String × Nat)}
    {result : Except Fault α} (h : Nested registry log)
    (hlater : Nested.Until registry later result) :
    Nested.Until registry (log ++ later) result := by
  cases result with
  | ok value => exact Nested.append h hlater
  | error fault => exact Nested.brokenOff h hlater

/-! ## Counters

What a stretch of a run adds to the counters, given its log. -/

/-- `Books settings before log after`: what is completed in `log` has been added
to the counters, and no level was entered that the limits forbid. -/
structure Progress.Books (settings : Settings) (before : Progress) (log : List (String × Nat))
    (after : Progress) : Prop where
  replacements : after.replacements = before.replacements + (completed log).length
  tally : after.tally =
    (completed log).foldl (fun tally entry => Tally.increment entry.1 tally) before.tally
  trace : after.trace.toList =
    before.trace.toList ++ if settings.tracing then completed log else []
  deepens : before.deepest ≤ after.deepest
  stays : after.deepest ≤ max before.deepest settings.limits.depth
  levels : ∀ entry ∈ log, entry.2 ≤ after.deepest

namespace Progress.Books

variable {settings : Settings} {before between after : Progress} {log later : List (String × Nat)}

theorem refl (settings : Settings) (progress : Progress) :
    progress.Books settings [] progress where
  replacements := rfl
  tally := rfl
  trace := by simp [completed]
  deepens := Nat.le_refl _
  stays := Nat.le_max_left _ _
  levels := by simp

theorem guard (h : before.Books settings log after) : before.Books settings log after.guard :=
  { h with }

theorem trans (h : before.Books settings log between)
    (hlater : between.Books settings later after) :
    before.Books settings (log ++ later) after where
  replacements := by
    rw [hlater.replacements, h.replacements, completed_append, List.length_append, Nat.add_assoc]
  tally := by rw [hlater.tally, h.tally, completed_append, List.foldl_append]
  trace := by
    rw [hlater.trace, h.trace, completed_append, List.append_assoc]
    split <;> rfl
  deepens := Nat.le_trans h.deepens hlater.deepens
  stays := by
    have hfirst := h.stays
    have hsecond := hlater.stays
    omega
  levels := by
    intro entry hentry
    rcases List.mem_append.mp hentry with hentry | hentry
    · exact Nat.le_trans (h.levels entry hentry) hlater.deepens
    · exact hlater.levels entry hentry

theorem reach (settings : Settings) (progress : Progress) {depth : Nat}
    (h : depth ≤ settings.limits.depth) :
    progress.Books settings [] (progress.reach depth) :=
  { refl settings progress with
    deepens := Nat.le_max_left _ _
    stays := Nat.max_le.mpr ⟨Nat.le_max_left _ _, Nat.le_trans h (Nat.le_max_right _ _)⟩
    levels := by simp }

/-- A mark counts for nothing. -/
theorem mark (settings : Settings) (progress : Progress) (id : String) :
    progress.Books settings [(id, 0)] progress :=
  { refl settings progress with levels := by simp }

theorem record (settings : Settings) {progress : Progress} (id : String) {depth : Nat}
    (hpos : 0 < depth) (hdeep : depth ≤ progress.deepest) :
    progress.Books settings [(id, depth)] (progress.record settings.tracing id depth) where
  replacements := by rw [completed_entry hpos]; rfl
  tally := by rw [completed_entry hpos]; rfl
  trace := by
    rw [completed_entry hpos, Progress.record]
    split
    · exact Array.toList_push
    · exact (List.append_nil _).symm
  deepens := Nat.le_refl _
  stays := Nat.le_max_left _ _
  levels := by
    rintro entry hentry
    rw [List.mem_singleton.mp hentry]
    exact hdeep

end Progress.Books

/-! ## Marked expansion -/

/-- Notes that an application of rule `id` begins. -/
def Progress.mark (progress : Progress) (id : String) : Progress :=
  { progress with trace := progress.trace.push (id, 0) }

namespace Marked

/-- Replaces a form as `Settings.settle` does, with each application marked. -/
def settle (registry : Registry) (limits : Limits) (scene : Scene) (depth : Nat) (left : Nat)
    (form : Form) : Run Form :=
  match registry.invocation? form with
  | none => pure form
  | some (entry, args) =>
    match left with
    | 0 => throw (.replacedTooOften entry.id limits.replacements)
    | left + 1 => do
      Run.note (·.mark entry.id)
      let replacement ← entry.apply scene.means args
      Run.note (·.record true entry.id depth)
      settle registry limits scene depth left replacement

/-- Expands a form as `Settings.expand` does, with each application marked. -/
def expand (registry : Registry) (limits : Limits) : (room depth : Nat) → Frame → Form → Run Form
  | 0, _, _, _ => throw (.nestedTooDeep limits.depth)
  | room + 1, depth, frame, form => do
    Run.note (·.reach (depth + 1))
    let scene : Scene := ⟨registry, frame, expand registry limits room (depth + 1)⟩
    let settled ← settle registry limits scene (depth + 1) limits.replacements form
    scene.descend settled

/-- What a marked run that starts below `depth` levels sees. -/
def scene (registry : Registry) (limits : Limits) (depth : Nat) (frame : Frame) : Scene :=
  ⟨registry, frame, expand registry limits (limits.depth - depth) depth⟩

end Marked

/-! ## The plain run and the marked one -/

/-- The same counters with another trace. -/
def Progress.withTrace (progress : Progress) (trace : Array (String × Nat)) : Progress :=
  { progress with trace }

/-- How a plain run that started from `before` went, with its log, given the marked
run from the same counters and the log `kept` so far. What was completed is below
level `above`. -/
structure Watched (settings : Settings) (above : Nat) {α : Type} (before : Progress)
    (kept : Array (String × Nat)) (plain marked : Except Fault α × Progress)
    (log : List (String × Nat)) : Prop where
  marked : marked = (plain.1, plain.2.withTrace (kept ++ log.toArray))
  books : before.Books settings log plain.2
  deeper : ∀ entry ∈ completed log, above < entry.2
  ends : Nested.Until settings.registry log plain.1

/-- A stretch in which no rule is applied. -/
theorem Watched.quiet {settings : Settings} {above : Nat} {α : Type} {before after : Progress}
    (kept : Array (String × Nat)) {result : Except Fault α} (h : before.Books settings [] after) :
    Watched settings above before kept (result, after) (result, after.withTrace kept) [] where
  marked := by simp
  books := h
  deeper := by simp [completed]
  ends := by
    cases result with
    | ok value => exact .nil
    | error fault => exact .between .nil

/-- Runs that walk together from every progress that has reached level `floor`, the
second with its applications marked. -/
def Pairing.watched (settings : Settings) (above floor : Nat) : Pairing where
  holds first second := ∀ before kept, floor ≤ before.deepest →
    ∃ log, Watched settings above before kept (first.perform before)
      (second.perform (before.withTrace kept)) log
  pure _ before kept _ := ⟨[], .quiet kept (.refl settings before)⟩
  throw _ before kept _ := ⟨[], .quiet kept (.refl settings before)⟩
  guard before kept _ := ⟨[], .quiet kept (Progress.Books.refl settings before).guard⟩
  bind := by
    intro α β first second next other hfirst hnext before kept hfloor
    obtain ⟨log, h⟩ := hfirst before kept hfloor
    rcases hrun : first.perform before with ⟨fault | value, between⟩
    · rw [hrun] at h
      rw [Run.perform_bind_of_error hrun, Run.perform_bind_of_error h.marked]
      exact ⟨log, rfl, h.books, h.deeper, h.ends⟩
    · rw [hrun] at h
      obtain ⟨later, hlater⟩ := hnext value between (kept ++ log.toArray)
        (Nat.le_trans hfloor h.books.deepens)
      rw [Run.perform_bind_of_ok hrun, Run.perform_bind_of_ok h.marked]
      refine ⟨log ++ later, ?_, h.books.trans hlater.books, ?_, Nested.until h.ends hlater.ends⟩
      · rw [hlater.marked, ← List.append_toArray, Array.append_assoc]
      · rw [completed_append]
        exact List.forall_mem_append.mpr ⟨h.deeper, hlater.deeper⟩

namespace Pairing

variable {settings : Settings} {above floor depth : Nat}

theorem watched_mono {α : Type} {first second : Run α} {higher lower : Nat}
    (habove : higher ≤ above) (hfloor : floor ≤ lower)
    (h : (watched settings above floor).holds first second) :
    (watched settings higher lower).holds first second := by
  intro before kept hbefore
  obtain ⟨log, hlog⟩ := h before kept (Nat.le_trans hfloor hbefore)
  exact ⟨log, hlog.marked, hlog.books,
    fun entry hentry => Nat.lt_of_le_of_lt habove (hlog.deeper entry hentry), hlog.ends⟩

/-- To enter a level is to have reached it. -/
theorem watched_enter {α : Type} {first second : Run α} (hdepth : depth ≤ settings.limits.depth)
    (h : (watched settings above depth).holds first second) :
    (watched settings above floor).holds (do Run.note (·.reach depth); first)
      (do Run.note (·.reach depth); second) := by
  intro before kept _
  obtain ⟨log, hlog⟩ := h (before.reach depth) kept (Nat.le_max_right _ _)
  exact ⟨log, hlog.marked, (Progress.Books.reach settings before hdepth).trans hlog.books,
    hlog.deeper, hlog.ends⟩

/-- An application and what comes after it. The marked run puts a mark down first,
and both record the application once it is complete. -/
theorem watched_application {id : String} (hknown : settings.registry.contains id)
    (habove : above < depth) {first second : Run Form} {next other : Form → Run Form}
    (h : (watched settings depth depth).holds first second)
    (hnext : ∀ value, (watched settings above depth).holds (next value) (other value)) :
    (watched settings above depth).holds
      (do
        let value ← first
        Run.note (·.record settings.tracing id depth)
        next value)
      (do
        Run.note (·.mark id)
        let value ← second
        Run.note (·.record true id depth)
        other value) := by
  intro before kept hbefore
  have hbegun := Progress.Books.mark settings before id
  obtain ⟨inside, hinside⟩ := h before (kept.push (id, 0)) hbefore
  rw [Run.perform_bind_of_ok (Run.perform_note (·.mark id) _)]
  change ∃ log, Watched settings above before kept _
    ((second >>= _).perform (before.withTrace (kept.push (id, 0)))) log
  rcases hrun : first.perform before with ⟨fault | value, between⟩
  · rw [hrun] at hinside
    rw [Run.perform_bind_of_error hrun, Run.perform_bind_of_error hinside.marked]
    refine ⟨(id, 0) :: inside, by simp, hbegun.trans hinside.books, ?_, ?_⟩
    · exact fun entry hentry => Nat.lt_trans habove (hinside.deeper entry hentry)
    · exact .within hknown .nil hinside.ends
  · rw [hrun] at hinside
    have hdeep : depth ≤ between.deepest := Nat.le_trans hbefore hinside.books.deepens
    have hpos : 0 < depth := Nat.zero_lt_of_lt habove
    have hrecorded := Progress.Books.record settings id hpos hdeep
    have hnested : Nested settings.registry ((id, 0) :: inside ++ [(id, depth)]) :=
      .application hknown hpos hinside.ends hinside.deeper .nil
    have hdeeper : ∀ entry ∈ completed ((id, 0) :: inside ++ [(id, depth)]), above < entry.2 := by
      rw [completed_append, List.forall_mem_append, completed_entry hpos]
      refine ⟨fun entry hentry => Nat.lt_trans habove (hinside.deeper entry hentry), ?_⟩
      simpa [completed] using habove
    rw [Run.perform_bind_of_ok hrun, Run.perform_bind_of_ok hinside.marked,
      Run.perform_bind_of_ok (Run.perform_note _ _), Run.perform_bind_of_ok (Run.perform_note _ _)]
    obtain ⟨later, hlater⟩ := hnext value (between.record settings.tracing id depth)
      ((kept.push (id, 0) ++ inside.toArray).push (id, depth)) hdeep
    refine ⟨(id, 0) :: inside ++ [(id, depth)] ++ later, ?_, ?_, ?_, hnested.until hlater.ends⟩
    · exact hlater.marked.trans (by simp)
    · exact ((hbegun.trans hinside.books).trans hrecorded).trans hlater.books
    · rw [completed_append, List.forall_mem_append]
      exact ⟨hdeeper, hlater.deeper⟩

end Pairing

theorem Registry.contains_of_invocation? {registry : Registry} {form : Form} {entry : Entry}
    {args : List Form} (h : registry.invocation? form = some (entry, args)) :
    registry.contains entry.id := by
  obtain ⟨⟨id, given⟩, -, h⟩ := Option.bind_eq_some_iff.mp h
  obtain ⟨found, hfind, h⟩ := Option.bind_eq_some_iff.mp h
  cases h
  have hid : entry.id = id := by simpa using List.find?_some hfind
  rw [contains, hid, hfind]
  rfl

namespace Settings

theorem settle_watched (settings : Settings) {above depth : Nat} (habove : above < depth)
    {scene other : Scene} (h : (Pairing.watched settings depth depth).Scenes scene other)
    (left : Nat) (form : Form) :
    (Pairing.watched settings above depth).holds (settings.settle scene depth left form)
      (Marked.settle settings.registry settings.limits other depth left form) := by
  induction left generalizing form with
  | zero =>
      unfold settle Marked.settle
      cases settings.registry.invocation? form with
      | none => exact Pairing.pure _ _
      | some call => exact Pairing.throw _ _
  | succ left ih =>
      unfold settle Marked.settle
      cases hcall : settings.registry.invocation? form with
      | none => exact Pairing.pure _ _
      | some call =>
          have hknown := Registry.contains_of_invocation? hcall
          exact Pairing.watched_application hknown habove (h.apply call.1 call.2) ih

/-- Expansion and marked expansion walk together. The levels below `depth` are
those that a form is expanded at. -/
theorem expand_watched (settings : Settings) {room depth : Nat}
    (hroom : room ≤ settings.limits.depth - depth) {frame other : Frame}
    (hframe : frame.Agrees other) (form : Form) :
    (Pairing.watched settings depth 0).holds (settings.expand room depth frame form)
      (Marked.expand settings.registry settings.limits room depth other form) := by
  induction room generalizing depth frame other form with
  | zero => exact Pairing.throw _ _
  | succ room ih =>
      have hscenes : (Pairing.watched settings (depth + 1) (depth + 1)).Scenes
          (settings.inside room (depth + 1) frame)
          ⟨settings.registry, other, Marked.expand settings.registry settings.limits room
            (depth + 1)⟩ :=
        ⟨rfl, hframe, fun hinner inner =>
          Pairing.watched_mono (Nat.le_refl _) (Nat.zero_le _) (ih (by omega) hinner inner)⟩
      rw [expand_succ]
      refine Pairing.watched_enter (by omega) ?_
      refine Pairing.bind _ (settle_watched settings (Nat.lt_succ_self _) hscenes _ form) ?_
      intro settled
      exact Pairing.watched_mono (Nat.le_succ _) (Nat.le_refl _) (hscenes.descend settled)

end Settings

theorem Pairing.watched_scenes (settings : Settings) (depth : Nat) (frame : Frame) :
    (Pairing.watched settings depth 0).Scenes
      (settings.inside (settings.limits.depth - depth) depth frame)
      (Marked.scene settings.registry settings.limits depth frame) where
  registry := rfl
  frame := .refl frame
  expandIn hframe form := settings.expand_watched (Nat.le_refl _) hframe form

/-- The settings without a trace. -/
def Settings.silent (settings : Settings) : Settings := { settings with tracing := false }

/-- The progress without its trace. -/
def Progress.silent (progress : Progress) : Progress := progress.withTrace #[]

theorem Progress.silent_of_empty {progress : Progress} (h : progress.trace = #[]) :
    progress.silent = progress := by
  rw [silent, withTrace, ← h]

/-- Whether a trace is kept shows in the trace only: both runs walk together with
the marked one, which keeps its log in any case. -/
theorem Pairing.watched_silent {settings : Settings} {above : Nat} {α : Type}
    {plain quiet marked : Run α} (hplain : (watched settings above 0).holds plain marked)
    (hquiet : (watched settings.silent above 0).holds quiet marked) (before : Progress) :
    quiet.perform before.silent = ((plain.perform before).1, (plain.perform before).2.silent) := by
  obtain ⟨log, h⟩ := hplain before #[] (Nat.zero_le _)
  obtain ⟨log', h'⟩ := hquiet before.silent #[] (Nat.zero_le _)
  have hsame := h'.marked.symm.trans h.marked
  have hempty : (quiet.perform before.silent).2.trace = #[] :=
    Array.toList_eq_nil_iff.mp h'.books.trace
  obtain ⟨hresult, hcounters⟩ := Prod.mk.inj hsame
  refine Prod.ext hresult ?_
  have hsilent := congrArg Progress.silent hcounters
  exact (Progress.silent_of_empty hempty).symm.trans hsilent

end Rulebook
