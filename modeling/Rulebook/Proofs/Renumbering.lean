import Rulebook.Proofs.EarlyExit
import Rulebook.Proofs.Twins

/-!
# The number of a token

The number of its token is all that a setup has of the setups before it. Run
twice with two numbers, a setup goes through the same steps: forms that were
twins before a step are twins after it, and the progress is the same. A rule
finds its context under keys and its arguments by their places, it decides by
heads, names and lengths, and in all of this twins are alike. So a setup
succeeds with both numbers or with neither, and what it makes differs by the
token alone.

Only one of the two numbers has to be new to the setup. The other token may well
occur in it, and then the renamed code mentions it for two reasons.
-/

namespace Rulebook

/-- From the same progress two runs come to related results or to faults that
are twins, and leave the same progress. -/
def Relating.twinning (number other : UInt64) : Relating Run Run where
  holds right run twin := ∀ progress,
    Outcomes (Fault.Twins number other) right (run.perform progress).1
        (twin.perform progress).1 ∧
      (twin.perform progress).2 = (run.perform progress).2
  faults := Fault.Twins number other
  pure hvalue _ := ⟨.ok hvalue, rfl⟩
  throw hfault _ := ⟨.error hfault, rfl⟩
  bind := by
    intro α β γ δ between right first second next other hfirst hnext progress
    have hrun := hfirst progress
    rw [Run.perform_bind, Run.perform_bind]
    revert hrun
    generalize first.perform progress = one, second.perform progress = two
    obtain ⟨result, after⟩ := one
    obtain ⟨result', after'⟩ := two
    rintro ⟨hvalue | hfault, rfl⟩
    · exact hnext _ _ hvalue after'
    · exact ⟨.error hfault, rfl⟩

/-! ## Contexts -/

/-- Contexts that hold the two tokens under their own key, and twins under every
other. -/
structure Frame.Twins (number other : UInt64) (frame twin : Frame) : Prop where
  quit : frame.find? .quit = some (Setup.token number)
  quit' : twin.find? .quit = some (Setup.token other)
  others : ∀ {key : Key}, key ≠ .quit →
    Option.Rel (Form.Twins number other) (frame.find? key) (twin.find? key)

theorem Frame.Twins.bind {number other : UInt64} {frame twin : Frame}
    (h : frame.Twins number other twin) {key : Key} (hkey : key ≠ .quit) {value copy : Form}
    (hvalue : value.Twins number other copy) :
    (frame.bind key value).Twins number other (twin.bind key copy) where
  quit := by
    rw [find?_bind, if_neg (Ne.symm hkey)]
    exact h.quit
  quit' := by
    rw [find?_bind, if_neg (Ne.symm hkey)]
    exact h.quit'
  others := by
    intro sought hsought
    rw [find?_bind, find?_bind]
    split
    · exact .some hvalue
    · exact h.others hsought

namespace Relating

variable (number other : UInt64)

theorem contexts_twins :
    (twinning number other).Contexts (Form.Twins number other) (Form.Twins number other)
      (Frame.Twins number other) where
  transfers := Form.transfers_twins number other
  deduce := by
    intro frame twin key hframe hkey
    have hvalue := hframe.others hkey
    unfold Frame.deduce
    revert hvalue
    generalize frame.find? key = value, twin.find? key = copy
    rintro (hvalue | _)
    · exact .ok hvalue
    · exact .error (.same _)
  bind hframe hkey hname := hframe.bind hkey hname
  unknownTarget := .unknownTarget
  expectedSymbol rule _ _ hform := .expectedSymbol rule hform
  fault fault _ := .same fault
  note _ _ := ⟨.ok rfl, rfl⟩

variable {number other}

/-- Here the tokens come into the code. -/
theorem exits_twins {scene twin : Scene} (h : scene.frame.Twins number other twin.frame) :
    (twinning number other).Exits (Form.Twins number other) scene.means twin.means := by
  intro value copy hvalue progress
  have htoken : scene.frame.deduce .quit = .ok (Setup.token number) := by
    rw [Frame.deduce, h.quit]
  have htoken' : twin.frame.deduce .quit = .ok (Setup.token other) := by
    rw [Frame.deduce, h.quit']
  show Outcomes _ _ ((scene.exit value).perform progress).1 ((twin.exit copy).perform progress).1 ∧
    ((twin.exit copy).perform progress).2 = ((scene.exit value).perform progress).2
  rw [Scene.exit, Scene.exit, Scene.deduce, Scene.deduce, htoken, htoken']
  exact ⟨.ok (Form.twins_throwTo hvalue), rfl⟩

end Relating

/-! ## Expansion -/

/-- Expansion makes twins of twins, below any level and with any room. -/
theorem Settings.scenes_twins {settings : Settings} (hnative : settings.registry.Native)
    {number other : UInt64} (room depth : Nat) {frame twin : Frame}
    (hframe : frame.Twins number other twin) :
    (Relating.twinning number other).Scenes (Form.Twins number other) (Frame.Twins number other)
      (settings.inside room depth frame) (settings.inside room depth twin) := by
  refine Relating.scenes_inside (Relating.contexts_twins number other)
    (Form.transfersLater_twins number other)
    (hnative.invokes (Form.transfers_twins number other) fun _ hcall => ?_)
    (fun _ _ _ _ _ => .same _) (fun hscenes => Relating.exits_twins hscenes.frame) ?_ room depth
    hframe
  · cases Form.twins_list.mp hcall with
    | cons _ hargs => exact hargs
  · intro room depth frame twin form copy hscenes hform
    exact hscenes.descend (Form.transfers_twins number other) (Form.marks_twins number other)
      (hscenes.expandItems Form.twins_list) hform

/-! ## Setups -/

namespace Setup

variable {registry : Registry} {host : Host} {options : SetupOptions} {name : Form}
  {body : List Form} {number : UInt64}

theorem twins_bind_token {frame : Frame}
    (h : ∀ binding ∈ frame.bindings, tokenName number ∉ binding.2.symbols) (other : UInt64) :
    (frame.bind .quit (token number)).Twins number other (frame.bind .quit (token other)) where
  quit := by rw [Frame.find?_bind, if_pos rfl]
  quit' := by rw [Frame.find?_bind, if_pos rfl]
  others := by
    intro key hkey
    rw [Frame.find?_bind, Frame.find?_bind, if_neg hkey, if_neg hkey]
    cases hfind : frame.find? key with
    | none => exact .none
    | some value =>
        obtain ⟨inner, outer, hbindings, -⟩ := List.lookup_eq_some_iff.mp hfind
        exact .some (Form.twins_of_not_mem (h (key, value) (by simp [hbindings])))

/-- The forms of a setup, expanded with one token and with another. -/
theorem expanded_twins (hnative : registry.Native) (hname : tokenName number ∉ name.symbols)
    (hbody : ∀ form ∈ body, tokenName number ∉ form.symbols)
    (hframe : ∀ binding ∈ host.frame.bindings, tokenName number ∉ binding.2.symbols)
    (other : UInt64) :
    Outcomes (Fault.Twins number other) (List.Forall₂ (Form.Twins number other))
        (expanded registry host options name body number).1
        (expanded registry host options name body other).1 ∧
      (expanded registry host options name body other).2 =
        (expanded registry host options name body number).2 := by
  let settings : Settings := ⟨registry, options.limits, options.tracing⟩
  have hsettings : settings.registry.Native := hnative
  have hscenes := Settings.scenes_twins hsettings options.limits.depth 0
    (twins_bind_token hframe other)
  have hrooted : ∀ form ∈ rooted registry options.rootRule name body,
      form.Twins number other form := fun form hform =>
    Form.twins_of_not_mem (not_mem_rooted hnative hname hbody options.rootRule form hform)
  exact hscenes.expandAll (List.forall₂_same.mpr hrooted) {}

theorem twins_assemble {forms twins : List Form} {other : UInt64} (guarded : Bool)
    (h : List.Forall₂ (Form.Twins number other) forms twins) :
    (assemble (token number) guarded forms).Twins number other
      (assemble (token other) guarded twins) := by
  have htransfers := Form.transfers_twins number other
  unfold assemble
  split
  · exact Form.twins_catchFor (List.rel_flatMap h fun _ _ => htransfers.statements)
  · exact htransfers.sequence h

/-- What a setup comes to with one token and with another. -/
theorem run_twins (hnative : registry.Native) (hname : tokenName number ∉ name.symbols)
    (hbody : ∀ form ∈ body, tokenName number ∉ form.symbols)
    (hframe : ∀ binding ∈ host.frame.bindings, tokenName number ∉ binding.2.symbols)
    (other : UInt64) :
    Outcomes (Fault.Twins number other)
      (fun outcome copy => outcome.form.Twins number other copy.form ∧
        copy.target = outcome.target ∧ copy.token = token other ∧
        copy.progress = outcome.progress)
      ((run registry host options name body).perform number).1
      ((run registry host options name body).perform other).1 := by
  have hexpanded := @expanded_twins _ host options _ _ _ hnative hname hbody hframe other
  rw [perform_run, perform_run]
  cases host.lexical with
  | false => exact .error (.same _)
  | true =>
      revert hexpanded
      generalize expanded registry host options name body number = one,
        expanded registry host options name body other = two
      obtain ⟨result, progress⟩ := one
      obtain ⟨result', progress'⟩ := two
      rintro ⟨hforms | hfault, rfl⟩
      · exact .ok ⟨twins_assemble _ hforms, rfl, rfl, rfl⟩
      · exact .error hfault

/-- Of the number of its token a setup with the built-in rules shows only the
token, provided that is new to the setup. With another number it succeeds or
fails as before. Its code has the other token in place of the one, and its
target and the whole of its progress are the same. A fault is of the same kind,
and if it quotes a form, it quotes that form with the other token. -/
theorem run_renumbered (host : Host) (options : SetupOptions) (name : Form) (body : List Form)
    (number other : UInt64) (hname : tokenName number ∉ name.symbols)
    (hbody : ∀ form ∈ body, tokenName number ∉ form.symbols)
    (hframe : ∀ binding ∈ host.frame.bindings, tokenName number ∉ binding.2.symbols) :
    (((run Catalogue.registry host options name body).perform other).1.isOk =
      ((run Catalogue.registry host options name body).perform number).1.isOk) ∧
    (∀ outcome copy,
      ((run Catalogue.registry host options name body).perform number).1 = .ok outcome →
      ((run Catalogue.registry host options name body).perform other).1 = .ok copy →
      copy.form = outcome.form.rename (tokenName number) (tokenName other) ∧
      copy.target = outcome.target ∧ copy.token = token other ∧
      copy.progress = outcome.progress) ∧
    (∀ fault copy,
      ((run Catalogue.registry host options name body).perform number).1 = .error fault →
      ((run Catalogue.registry host options name body).perform other).1 = .error copy →
      copy.ctorIdx = fault.ctorIdx ∧ fault.Twins number other copy) := by
  have halike := @run_twins _ host options _ _ _ Catalogue.native_registry hname hbody hframe other
  revert halike
  generalize ((run Catalogue.registry host options name body).perform number).1 = one,
    ((run Catalogue.registry host options name body).perform other).1 = two
  rintro (⟨hform, htarget, htoken, hprogress⟩ | hfault)
  · refine ⟨rfl, ?_, by rintro _ _ ⟨⟩⟩
    rintro _ _ ⟨⟩ ⟨⟩
    exact ⟨hform.eq_rename, htarget, htoken, hprogress⟩
  · refine ⟨rfl, by rintro _ _ ⟨⟩, ?_⟩
    rintro _ _ ⟨⟩ ⟨⟩
    exact ⟨hfault.ctorIdx_eq, hfault⟩

/-- The setup that may leave early, with the eighth token. -/
theorem run_renumbered_of_leaving :
    ((run Catalogue.registry {} {} (.symbol "magit") leaving).perform 0).1 = .ok leavingOutcome ∧
    ∃ copy,
      ((run Catalogue.registry {} {} (.symbol "magit") leaving).perform 7).1 = .ok copy ∧
      copy.form = leavingOutcome.form.rename "setup-quit-0" "setup-quit-7" ∧
      copy.progress = leavingOutcome.progress := by
  have hrun : ((run Catalogue.registry {} {} (.symbol "magit") leaving).perform 0).1 =
      .ok leavingOutcome := by
    rfl
  obtain ⟨hsame, hcopy, -⟩ := run_renumbered {} {} (.symbol "magit") leaving 0 7 (by decide)
    (by decide) (by decide)
  refine ⟨hrun, ?_⟩
  rw [hrun] at hsame
  cases hseven : ((run Catalogue.registry {} {} (.symbol "magit") leaving).perform 7).1 with
  | error fault =>
      rw [hseven] at hsame
      cases hsame
  | ok copy =>
      obtain ⟨hform, -, -, hprogress⟩ := hcopy _ _ hrun hseven
      exact ⟨copy, rfl, hform, hprogress⟩

end Setup

end Rulebook
