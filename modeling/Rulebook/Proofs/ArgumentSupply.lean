import Rulebook.Proofs.Scenes
import Rulebook.Proofs.Sources
import Rulebook.Proofs.Wrapping

/-!
# Rules find the arguments they look for

The built-in rules take their arguments by position and do not ask how many there
are. A position past the end would be a fault of its own kind, one that names no
mistake of the user's. That it is never seen is not the doing of the rules. What
stands around a rule hands it only slices of the declared size, the sizes declared
in the catalogue are the numbers of arguments that the rules look for, and the
rules that declare no size look before they take.

An argument can also be missing further down, where a rule has forms expanded. So
what is shown of a rule by itself is that such a fault was met by expansion below
it, and for whole runs there is none, level by level.
-/

namespace Rulebook

/-- Every fault that the run can end in is allowed. -/
def Run.FaultsIn {α : Type} (run : Run α) (allowed : Fault → Prop) : Prop :=
  ∀ progress fault, (run.perform progress).1 = .error fault → allowed fault

/-- What is said of a run beside itself is said of its faults. -/
theorem Run.faultsIn_iff {α : Type} {allowed : Fault → Prop} {run : Run α} :
    (Relating.alone allowed).holds Eq run run ↔ run.FaultsIn allowed :=
  ⟨fun h progress => (h progress).2, fun h progress => ⟨fun value _ => ⟨value, rfl⟩, h progress⟩⟩

/-! ## Scenes -/

theorem Frame.not_isMissing_of_deduce {frame : Frame} {key : Key} {fault : Fault}
    (h : frame.deduce key = .error fault) : ¬ fault.IsMissing := by
  unfold Frame.deduce at h
  split at h
  · cases h
  · cases h
    exact id

theorem Scope.not_isMissing_of_bindings {scope : Scope} {target : Form} {fault : Fault}
    (h : scope.bindings target = .error fault) : ¬ fault.IsMissing := by
  unfold Scope.bindings at h
  split at h
  · cases h
  · cases h
    exact id

namespace Scene

/-- A fault that a rule may end in: if it is that of a missing argument, expansion
further down ended in it. -/
def Admits (scene : Scene) (fault : Fault) : Prop :=
  fault.IsMissing →
    ∃ frame form progress, ((scene.expandIn frame form).perform progress).1 = .error fault

variable (scene : Scene)

theorem expandIn_faultsIn (frame : Frame) (form : Form) :
    (scene.expandIn frame form).FaultsIn scene.Admits :=
  fun progress _ hends _ => ⟨frame, form, progress, hends⟩

variable {scene} in
theorem admits {fault : Fault} (h : ¬ fault.IsMissing) : scene.Admits fault :=
  fun hmissing => absurd hmissing h

variable {scene} in
theorem settled_faultsIn {α : Type} {outcome : Except Fault α}
    (h : ∀ fault, outcome = .error fault → ¬ fault.IsMissing) :
    (Means.settled outcome : Run α).FaultsIn scene.Admits := by
  intro progress fault hends
  rw [Run.perform_settled] at hends
  exact admits (h fault hends)

theorem expandAll_faultsIn (forms : List Form) :
    (scene.expandAll forms).FaultsIn scene.Admits :=
  Run.faultsIn_iff.mp <| Relating.mapM_same _ fun form _ =>
    Run.faultsIn_iff.mpr (scene.expandIn_faultsIn scene.frame form)

theorem expandFor_faultsIn (scope : Scope) (body : List Form) (target : Form) :
    (scene.expandFor scope body target).FaultsIn scene.Admits := by
  have hbindings : (Means.settled (scope.bindings target) : Run _).FaultsIn scene.Admits :=
    settled_faultsIn fun _ => Scope.not_isMissing_of_bindings
  refine Run.faultsIn_iff.mp (Relating.bindEq _ (Run.faultsIn_iff.mpr hbindings) fun bindings => ?_)
  have hinner := (scene.withFrame (scene.frame.bindAll bindings)).expandAll_faultsIn body
  exact Run.faultsIn_iff.mpr hinner

theorem descend_faultsIn (form : Form) : (scene.descend form).FaultsIn scene.Admits := by
  refine Run.faultsIn_iff.mp ?_
  unfold Scene.descend
  split
  · next items =>
      split
      · exact Relating.pure _ rfl
      · have hitems := Run.faultsIn_iff.mpr (scene.expandAll_faultsIn items)
        exact Relating.bindEq _ hitems fun _ => Relating.pure _ rfl
  · next items =>
      have hlist := Run.faultsIn_iff.mpr (scene.expandIn_faultsIn scene.frame (.list items))
      exact Relating.bindEq _ hlist fun _ => Relating.pure _ rfl
  · exact Relating.pure _ rfl

/-- What a rule is handed ends in no fault that it may not end in itself. -/
theorem agrees_alone : (Relating.alone scene.Admits).Agrees scene.means scene.means where
  registry := rfl
  deduce _ := Run.faultsIn_iff.mpr (settled_faultsIn fun _ => Frame.not_isMissing_of_deduce)
  exit value := by
    have htoken : (scene.deduce .quit).FaultsIn scene.Admits :=
      settled_faultsIn fun _ => Frame.not_isMissing_of_deduce
    refine Relating.bindEq _ (Run.faultsIn_iff.mpr htoken) fun token => ?_
    exact Relating.bindEq _ (Relating.alone_note _ _) fun _ => Relating.pure _ rfl
  expandAll forms := Run.faultsIn_iff.mpr (scene.expandAll_faultsIn forms)
  enter scope targets body := by
    have hturns := fun target (_ : target ∈ targets.elements) =>
      Run.faultsIn_iff.mpr (scene.expandFor_faultsIn scope body target)
    exact Relating.bindEq _ (Relating.mapM_same _ hturns) fun _ => Relating.pure _ rfl
  fault _ := admits

end Scene

/-! ## Too few arguments -/

/-- A built-in rule that gets too few arguments looks for one that is not there, if
nothing in its context stops it before. -/
theorem Builtin.emit_missing {scene : Scene} (hbound : ∀ key, (scene.frame.find? key).isSome)
    {args : List Form} {builtin : Builtin} (h : args.length < builtin.reads)
    (progress : Progress) :
    ∃ index, ((builtin.emit scene.means args).perform progress).1 =
      .error (.missingArgument index args.length) := by
  have hdeduce : ∀ key, ∃ value, scene.deduce key = pure value := by
    intro key
    obtain ⟨value, hvalue⟩ := Option.isSome_iff_exists.mp (hbound key)
    exact ⟨value, by rw [Scene.deduce, Frame.deduce, hvalue]; rfl⟩
  obtain ⟨map, hmap⟩ := hdeduce .map
  obtain ⟨hook, hhook⟩ := hdeduce .hook
  obtain ⟨mode, hmode⟩ := hdeduce .mode
  obtain ⟨quit, hquit⟩ := hdeduce .quit
  have hthree : builtin.reads ≤ 3 := by cases builtin <;> decide
  rcases args with _ | ⟨first, _ | ⟨second, _ | ⟨third, rest⟩⟩⟩
  · cases builtin <;>
      simp only [emit, Scene.means, Scene.exit, hmap, hhook, hmode, hquit, pure_bind] <;>
      first
      | exact ⟨_, rfl⟩
      | contradiction
  · cases builtin <;> simp only [emit, Scene.means, hmap, hhook, pure_bind] <;>
      first
      | exact ⟨_, rfl⟩
      | contradiction
  · cases builtin <;>
      first
      | exact ⟨_, rfl⟩
      | contradiction
  · simp only [List.length_cons] at h
    omega

theorem Action.run_missing {scene : Scene} (hbound : ∀ key, (scene.frame.find? key).isSome)
    {args : List Form} {action : Action} (h : args.length < action.reads) (progress : Progress) :
    ∃ index, ((action.run scene.means args).perform progress).1 =
      .error (.missingArgument index args.length) := by
  cases action with
  | assign reader writer =>
      match args, h with
      | [], _ => exact ⟨0, rfl⟩
      | [_], _ => exact ⟨1, rfl⟩
      | _ :: _ :: rest, h => exact absurd h (Nat.not_lt.mpr (Nat.le_add_left 2 rest.length))
  | builtin rule => exact Builtin.emit_missing hbound h progress
  | _ => exact absurd h (Nat.not_lt_zero _)

/-! ## Entries -/

namespace Intake

variable {intake : Intake} {args slice : List Form}

theorem length_of_mem_slices {count : Nat} (harity : intake.arity = some count)
    (h : slice ∈ intake.slices args) : slice.length = count := by
  cases intake with
  | any => cases harity
  | exactly size =>
      cases harity
      simp only [slices] at h
      split at h
      · next hlength =>
          rw [List.mem_singleton.mp h]
          exact hlength
      · cases h
  | chunks size hpositive =>
      cases harity
      simp only [slices] at h
      split at h
      · next heven =>
          have hwhole := Nat.div_mul_cancel (Nat.dvd_of_mod_eq_zero heven)
          exact (chunks_chunksOf hwhole.symm).even slice h
      · cases h

theorem arity_le_of_mem_slices (h : slice ∈ intake.slices args) :
    intake.arity.getD 0 ≤ slice.length := by
  cases harity : intake.arity with
  | none => exact Nat.zero_le _
  | some count => exact Nat.le_of_eq (length_of_mem_slices harity h).symm

/-- What an intake makes of a rule depends only on what the rule does with the
slices. -/
theorem feed_congr {rule : String} {turn other : List Form → Run Form}
    (h : ∀ slice ∈ intake.slices args, turn slice = other slice) :
    intake.feed rule turn args = intake.feed rule other args := by
  have hargs : List.Forall₂ Eq args args := List.forall₂_same.mpr fun _ _ => rfl
  refine Pairing.equal.holds_of_relating
    (Pairing.equal.relating.feed .eq (fun _ _ => rfl) intake rule hargs ?_)
  intro slice hslice copy hcopy
  rw [List.forall₂_eq_eq_eq] at hcopy
  subst hcopy
  exact Pairing.equal.relating_eq (h slice hslice)

end Intake

namespace Entry

variable {entry : Entry}

/-- What stands around a rule shows it nothing but the slices. -/
theorem wrap_congr {args : List Form} {base other : List Form → Run Form}
    (h : ∀ slice ∈ entry.intake.slices args, base slice = other slice) (scene : Scene) :
    entry.wrap scene base args = entry.wrap scene other args := by
  simp only [wrap, Intake.feed_congr h]

/-- An entry that declares as many arguments as its action looks for. -/
def Supplied (entry : Entry) : Prop := entry.action.reads ≤ entry.arity.getD 0

/-- Every argument that the action looks for is in the slice. -/
theorem Supplied.excuses (h : entry.Supplied) (relating : Relating Run Run)
    {args slice : List Form} (hslice : slice ∈ entry.intake.slices args) :
    relating.Excuses slice entry.action.reads := by
  intro index hindex hout
  have hsize := Intake.arity_le_of_mem_slices hslice
  exact absurd (Nat.le_trans h hsize) (Nat.not_le.mpr (Nat.lt_of_le_of_lt hout hindex))

theorem Supplied.run_faultsIn (h : entry.Supplied) (scene : Scene) {args slice : List Form}
    (hslice : slice ∈ entry.intake.slices args) :
    (entry.action.run scene.means slice).FaultsIn scene.Admits :=
  Run.faultsIn_iff.mp (scene.agrees_alone.run entry.action (h.excuses _ hslice))

theorem Supplied.apply_faultsIn (h : entry.Supplied) (scene : Scene) (args : List Form) :
    (entry.apply scene.means args).FaultsIn scene.Admits :=
  Run.faultsIn_iff.mp (scene.agrees_alone.apply entry fun _ => h.excuses _)

end Entry

/-! ## Expansion -/

/-- Every entry declares as many arguments as its action looks for. -/
def Registry.Supplied (registry : Registry) : Prop :=
  ∀ (id : String) (entry : Entry), registry.find? id = some entry → entry.Supplied

/-- Expansion further down finds every argument that is looked for. -/
def Scene.Finds (scene : Scene) : Prop :=
  ∀ frame form, (scene.expandIn frame form).FaultsIn (¬ ·.IsMissing)

theorem Scene.Finds.faultsIn {scene : Scene} (h : scene.Finds) {α : Type} {run : Run α}
    (hrun : run.FaultsIn scene.Admits) : run.FaultsIn (¬ ·.IsMissing) := by
  intro progress fault hends hmissing
  obtain ⟨frame, form, before, hbelow⟩ := hrun progress fault hends hmissing
  exact h frame form before fault hbelow hmissing

namespace Settings

theorem settle_finds (settings : Settings) (hsupplied : settings.registry.Supplied) {scene : Scene}
    (h : scene.Finds) (depth left : Nat) (form : Form) :
    (settings.settle scene depth left form).FaultsIn (¬ ·.IsMissing) := by
  refine Run.faultsIn_iff.mp ?_
  induction left generalizing form with
  | zero =>
      unfold settle
      split
      · exact Relating.pure _ rfl
      · exact Relating.throw _ id
  | succ left ih =>
      unfold settle
      split
      · exact Relating.pure _ rfl
      · next entry args hcall =>
          obtain ⟨id, -, hfind⟩ := Registry.of_invocation? hcall
          have happly := h.faultsIn ((hsupplied id entry hfind).apply_faultsIn scene args)
          refine Relating.bindEq _ (Run.faultsIn_iff.mpr happly) fun replacement => ?_
          exact Relating.bindEq _ (Relating.alone_note _ _) fun _ => ih replacement

/-- No run looks for an argument that is not there, with whatever room. -/
theorem finds_inside {registry : Registry} (hsupplied : registry.Supplied) (limits : Limits)
    (tracing : Bool) (room depth : Nat) (frame : Frame) :
    (inside { registry, limits, tracing } room depth frame).Finds := by
  induction room generalizing depth frame with
  | zero => exact fun _ _ => Run.faultsIn_iff.mp (Relating.throw _ id)
  | succ room ih =>
      intro inner form
      have hbelow := ih (depth + 1) inner
      refine Run.faultsIn_iff.mp (Relating.bindEq _ (Relating.alone_note _ _) fun _ => ?_)
      have hsettle := settle_finds { registry, limits, tracing } hsupplied hbelow (depth + 1)
        limits.replacements form
      refine Relating.bindEq _ (Run.faultsIn_iff.mpr hsettle) fun settled => ?_
      exact Run.faultsIn_iff.mpr (hbelow.faultsIn (Scene.descend_faultsIn _ settled))

end Settings

/-! ## Setups -/

namespace Setup

variable {registry : Registry} (hsupplied : registry.Supplied) (host : Host)
  (options : SetupOptions)

include hsupplied

theorem not_isMissing_of_run {name : Form} {body : List Form} {number last : UInt64} {fault : Fault}
    (h : (run registry host options name body).perform number = (.error fault, last)) :
    ¬ fault.IsMissing := by
  rw [perform_run] at h
  split at h
  · split at h
    · next hexpanded =>
        cases h
        have hfinds := Settings.finds_inside hsupplied options.limits options.tracing
          options.limits.depth 0 (host.frame.bind .quit (token number))
        have hall := hfinds.faultsIn
          (Scene.expandAll_faultsIn _ (rooted registry options.rootRule name body))
        exact hall {} fault (congrArg Prod.fst hexpanded)
    · cases h
  · cases h
    exact id

theorem not_isMissing_of_runSource {source : String} {number last : UInt64} {fault : Fault}
    (h : (runSource registry host options source).perform number = (.error fault, last)) :
    ¬ fault.IsMissing := by
  unfold runSource at h
  split at h
  · cases h
    exact id
  · obtain ⟨place, form, -, -, hform⟩ := exists_of_mapM_error h
    rcases of_expandTopLevel_error hform with ⟨-, rfl, -⟩ | ⟨name, body, -, hrun⟩
    · exact id
    · exact not_isMissing_of_run hsupplied host options hrun

end Setup

/-! ## The catalogue -/

namespace Catalogue

/-- The catalogue declares for each rule the number of arguments it looks for. -/
theorem reads_eq_arity {id : String} {entry : Entry} (h : registry.find? id = some entry) :
    entry.action.reads = entry.arity.getD 0 := by
  have hrules : ∀ rule ∈ rules, rule.action.reads =
      (if rule.options.repetition = .never then rule.options.arity
        else some rule.options.chunkSize).getD 0 := by
    decide
  obtain ⟨rule, hrule, -, hrecords⟩ := exists_rule_of_find? h
  rw [hrecords.action, hrecords.arity]
  exact hrules rule hrule

theorem supplied_registry : registry.Supplied :=
  fun _ _ hfind => Nat.le_of_eq (reads_eq_arity hfind)

/-- A rule of the catalogue never looks for an argument that is not there. Of
whatever arguments it is applied to, it sees slices of the size that it declares
and no others. On a slice, and when it is applied, it ends in a missing argument
only if expansion further down did; with an argument too few it would look for
one that is not there. So in an expander of the built-in rules nothing ends that
way, at any level, and no setup does, given as a form or read from a text. -/
theorem arguments_in_range :
    (∀ id entry, registry.find? id = some entry → ∀ args : List Form,
      (∀ slice ∈ entry.intake.slices args, ∀ count, entry.arity = some count →
        slice.length = count) ∧
      (∀ scene base other, (∀ slice ∈ entry.intake.slices args, base slice = other slice) →
        entry.wrap scene base args = entry.wrap scene other args) ∧
      (∀ scene : Scene, ∀ slice ∈ entry.intake.slices args,
        (entry.action.run scene.means slice).FaultsIn scene.Admits) ∧
      (∀ scene : Scene, (entry.apply scene.means args).FaultsIn scene.Admits) ∧
      (∀ scene : Scene, (∀ key, (scene.frame.find? key).isSome) → ∀ count,
        entry.arity = some count → args.length < count → ∀ progress, ∃ index,
          ((entry.action.run scene.means args).perform progress).1 =
            .error (.missingArgument index args.length)) ∧
      (∀ limits tracing room depth frame, (entry.apply
        (Settings.inside { registry, limits, tracing } room depth frame).means args).FaultsIn
          (¬ ·.IsMissing))) ∧
    (∀ host options name body number fault,
      ((Setup.run registry host options name body).perform number).1 = .error fault →
        ¬ fault.IsMissing) ∧
    (∀ host options source number fault,
      ((Setup.runSource registry host options source).perform number).1 = .error fault →
        ¬ fault.IsMissing) := by
  refine ⟨fun id entry hfind args => ?_, ?_, ?_⟩
  · have hentry : entry.Supplied := supplied_registry id entry hfind
    refine ⟨fun slice hslice count harity => Intake.length_of_mem_slices harity hslice,
      fun scene base other hbase => Entry.wrap_congr hbase scene,
      fun scene slice hslice => hentry.run_faultsIn scene hslice,
      fun scene => hentry.apply_faultsIn scene args, ?_, ?_⟩
    · intro scene hbound count harity hfew progress
      have hreads := reads_eq_arity hfind
      rw [harity, Option.getD_some] at hreads
      exact Action.run_missing hbound (hreads ▸ hfew) progress
    · intro limits tracing room depth frame
      have hfinds := Settings.finds_inside supplied_registry limits tracing room depth frame
      exact hfinds.faultsIn (hentry.apply_faultsIn _ args)
  · intro host options name body number fault hends
    exact Setup.not_isMissing_of_run supplied_registry host options (Prod.ext hends rfl)
  · intro host options source number fault hends
    exact Setup.not_isMissing_of_runSource supplied_registry host options (Prod.ext hends rfl)

/-- A context in which nothing is left to deduce. -/
def everyKey : Frame :=
  Frame.empty.bindAll ([.feature, .mode, .map, .hook, .quit].map fun key => (key, .symbol "it"))

/-- The entry of the rule that binds keys. -/
def bindEntry : Entry where
  id := ":bind"
  action := .builtin .bind
  intake := .chunks 2 (by decide)
  deferred := true
  indent := none
  signature := some "KEY COMMAND ..."
  documentation := some "Bind KEY to COMMAND in the current map."
  shorthand := none
  debugShape := none

theorem arguments_in_range_of_bind :
    let scene := Settings.inside { registry } 3 1 everyKey
    let key : Form := .text "C-a"
    registry.find? ":bind" = some bindEntry ∧
    bindEntry.intake.slices [key, .symbol "f", key, .symbol "g"] =
      [[key, .symbol "f"], [key, .symbol "g"]] ∧
    (∃ index, ((bindEntry.action.run scene.means [key]).perform {}).1 =
      .error (.missingArgument index 1)) ∧
    bindEntry.intake.slices [key] = [] ∧
    ((bindEntry.apply scene.means [key]).perform {}).1 = .error (.raggedArguments ":bind" 2 1) ∧
    ¬ (Fault.raggedArguments ":bind" 2 1).IsMissing := by
  intro scene key
  have hfind : registry.find? ":bind" = some bindEntry := by decide +kernel
  have hrefused : ((bindEntry.apply scene.means [key]).perform {}).1 =
      .error (.raggedArguments ":bind" 2 1) := by
    rfl
  have hbound : ∀ sought, (everyKey.find? sought).isSome := by
    intro sought
    cases sought <;> rfl
  obtain ⟨-, -, -, -, hmisses, hfinds⟩ := arguments_in_range.1 ":bind" bindEntry hfind [key]
  refine ⟨hfind, by decide, hmisses scene hbound 2 rfl (by decide) {}, by decide, hrefused, ?_⟩
  exact hfinds {} false 3 1 everyKey {} _ hrefused

end Catalogue

end Rulebook
