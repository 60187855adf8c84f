import Rulebook.Expansion.Expand
import Rulebook.Proofs.Registration

/-!
# What entering a rule puts around it

A rule is entered with declarations about its arguments, and the entry does as
they say: it waits for a feature, counts the arguments or cuts them into chunks,
and only then does what the rule does. The rules below say what is to happen in
terms of the declarations alone. They know the chunks by what they are, pieces
of one size that make up the arguments, and not by how they are cut; and a turn
starts from the progress that the turn before it left.

The entry agrees with the rules for whatever stands in the place of the rule's
own action. It never looks at what a turn does, only at how it ends.
-/

namespace Rulebook

/-- The arguments come in these chunks, each of the same size. -/
structure Chunks (size : Nat) (args : List Form) (chunks : List (List Form)) : Prop where
  whole : chunks.flatten = args
  even : ∀ chunk ∈ chunks, chunk.length = size

/-- `Turns base chunks before results after`: one turn to a chunk, from left to
right, each from the progress that the one before it left, up to the first that
fails. -/
inductive Turns (base : List Form → Run Form) :
    List (List Form) → Progress → Except Fault (List Form) → Progress → Prop
  | done {progress : Progress} : Turns base [] progress (.ok []) progress
  | failed {chunk : List Form} {chunks : List (List Form)} {before after : Progress}
      {fault : Fault} (turn : (base chunk).perform before = (.error fault, after)) :
      Turns base (chunk :: chunks) before (.error fault) after
  | made {chunk : List Form} {chunks : List (List Form)} {before between after : Progress}
      {form : Form} {results : Except Fault (List Form)}
      (turn : (base chunk).perform before = (.ok form, between))
      (more : Turns base chunks between results after) :
      Turns base (chunk :: chunks) before (results.map (form :: ·)) after

namespace RuleOptions

/-- `Produces name base args before result after`: what a rule with these options
makes of its arguments, waiting apart. -/
inductive Produces (options : RuleOptions) (name : String) (base : List Form → Run Form)
    (args : List Form) (before : Progress) : Except Fault Form → Progress → Prop
  | once {result : Except Fault Form} {after : Progress} (single : options.repetition = .never)
      (fits : ∀ count, options.arity = some count → args.length = count)
      (run : (base args).perform before = (result, after)) :
      Produces options name base args before result after
  | miscounted {count : Nat} (single : options.repetition = .never)
      (declared : options.arity = some count) (other : args.length ≠ count) :
      Produces options name base args before (.error (.argumentCount name count args.length))
        before
  | ragged (repeats : options.repetition ≠ .never)
      (left : args.length % options.chunkSize ≠ 0) :
      Produces options name base args before
        (.error (.raggedArguments name options.chunkSize args.length)) before
  | inTurns {chunks : List (List Form)} {results : Except Fault (List Form)} {after : Progress}
      (repeats : options.repetition ≠ .never) (split : Chunks options.chunkSize args chunks)
      (turns : Turns base chunks before results after) :
      Produces options name base args before (results.map Form.sequence) after

/-- `Applies name base frame args before result after`: what a rule with these
options comes to in a context. A rule that waits asks for the feature before
anything else. -/
inductive Applies (options : RuleOptions) (name : String) (base : List Form → Run Form)
    (frame : Frame) (args : List Form) (before : Progress) : Except Fault Form → Progress → Prop
  | atOnce {result : Except Fault Form} {after : Progress} (direct : options.deferred = false)
      (produced : options.Produces name base args before result after) :
      Applies options name base frame args before result after
  | unbound (deferred : options.deferred = true) (missing : frame.find? .feature = none) :
      Applies options name base frame args before (.error (.notDeducible .feature)) before
  | waiting {feature : Form} {result : Except Fault Form} {after : Progress}
      (deferred : options.deferred = true) (bound : frame.find? .feature = some feature)
      (produced : options.Produces name base args before result after) :
      Applies options name base frame args before
        (result.map fun made =>
          .call "with-eval-after-load" (.quote feature :: made.statements)) after

end RuleOptions

/-! ## Chunks -/

theorem Chunks.length_eq {size : Nat} {args : List Form} {chunks : List (List Form)}
    (h : Chunks size args chunks) : args.length = chunks.length * size := by
  obtain ⟨rfl, heven⟩ := h
  induction chunks with
  | nil => simp
  | cons chunk chunks ih =>
      obtain ⟨hchunk, hchunks⟩ := List.forall_mem_cons.mp heven
      rw [List.flatten_cons, List.length_append, hchunk, ih hchunks, List.length_cons,
        Nat.succ_mul, Nat.add_comm]

/-- There is one way to cut arguments into chunks. -/
theorem Chunks.chunksOf_eq {size : Nat} {args : List Form} {chunks : List (List Form)}
    (h : Chunks size args chunks) : chunksOf size chunks.length args = chunks := by
  obtain ⟨rfl, heven⟩ := h
  induction chunks with
  | nil => rfl
  | cons chunk chunks ih =>
      obtain ⟨hchunk, hchunks⟩ := List.forall_mem_cons.mp heven
      rw [List.length_cons, List.flatten_cons, chunksOf, List.take_left' hchunk,
        List.drop_left' hchunk, ih hchunks]

theorem chunks_chunksOf {size count : Nat} {args : List Form} (h : args.length = count * size) :
    Chunks size args (chunksOf size count args) := by
  induction count generalizing args with
  | zero =>
      rw [Nat.zero_mul] at h
      exact ⟨(List.eq_nil_of_length_eq_zero h).symm, fun _ hnone => absurd hnone List.not_mem_nil⟩
  | succ count ih =>
      rw [Nat.succ_mul] at h
      have hlength : (args.drop size).length = count * size := by
        rw [List.length_drop]
        omega
      have hrest := ih hlength
      rw [chunksOf]
      refine ⟨?_, List.forall_mem_cons.mpr ⟨?_, hrest.even⟩⟩
      · rw [List.flatten_cons, hrest.whole, List.take_append_drop]
      · rw [List.length_take]
        omega

/-! ## Turns -/

theorem turns_iff {base : List Form → Run Form} {chunks : List (List Form)}
    {before after : Progress} {results : Except Fault (List Form)} :
    (chunks.mapM base).perform before = (results, after) ↔
      Turns base chunks before results after := by
  constructor
  · intro h
    induction chunks generalizing before results with
    | nil =>
        cases h
        exact .done
    | cons chunk chunks ih =>
        rw [List.mapM_cons] at h
        rcases hturn : (base chunk).perform before with ⟨_ | form, between⟩
        · rw [Run.perform_bind_of_error hturn] at h
          cases h
          exact .failed hturn
        · rw [Run.perform_bind_of_ok hturn] at h
          rcases hmore : (chunks.mapM base).perform between with ⟨rest, last⟩
          cases rest with
          | error fault =>
              rw [Run.perform_bind_of_error hmore] at h
              cases h
              exact .made hturn (ih hmore)
          | ok forms =>
              rw [Run.perform_bind_of_ok hmore] at h
              cases h
              exact .made hturn (ih hmore)
  · intro h
    induction h with
    | done => rfl
    | failed hturn =>
        rw [List.mapM_cons]
        exact Run.perform_bind_of_error hturn
    | @made _ _ _ _ _ _ results hturn _ ih =>
        rw [List.mapM_cons, Run.perform_bind_of_ok hturn]
        cases results with
        | error fault => exact Run.perform_bind_of_error ih
        | ok forms => exact Run.perform_bind_of_ok ih

theorem Turns.length_eq {base : List Form → Run Form} {chunks : List (List Form)}
    {before after : Progress} {forms : List Form} (h : Turns base chunks before (.ok forms) after) :
    forms.length = chunks.length := by
  generalize hresults : Except.ok forms = results at h
  induction h generalizing forms with
  | done =>
      cases hresults
      rfl
  | failed _ => cases hresults
  | made _ _ ih =>
      obtain ⟨rest, hrest, rfl⟩ := map_eq_ok.mp hresults.symm
      rw [List.length_cons, List.length_cons, ih hrest.symm]

/-- Two or more forms in sequence are spliced as they are. -/
theorem Form.statements_sequence {forms : List Form} (h : 2 ≤ forms.length) :
    (Form.sequence forms).statements = forms := by
  match forms, h with
  | _ :: _ :: _, _ => rfl

/-! ## Entries -/

namespace RuleOptions

section Produces

variable {options : RuleOptions} {name : String} {base : List Form → Run Form} {args : List Form}
  {before after : Progress} {result : Except Fault Form}

theorem produces_single_iff (h : options.repetition = .never) :
    options.Produces name base args before result after ↔
      if ∀ count, options.arity = some count → args.length = count then
        (base args).perform before = (result, after)
      else ∃ count, options.arity = some count ∧
        (.error (.argumentCount name count args.length), before) = (result, after) := by
  split
  · next hfits =>
      constructor
      · rintro (⟨-, -, hrun⟩ | ⟨-, hcount, hother⟩ | ⟨hrepeats, -⟩ | ⟨hrepeats, -, -⟩)
        · exact hrun
        · exact absurd (hfits _ hcount) hother
        · exact absurd h hrepeats
        · exact absurd h hrepeats
      · exact .once h hfits
  · next hother =>
      constructor
      · rintro (⟨-, hfits, -⟩ | ⟨-, hcount, -⟩ | ⟨hrepeats, -⟩ | ⟨hrepeats, -, -⟩)
        · exact absurd hfits hother
        · exact ⟨_, hcount, rfl⟩
        · exact absurd h hrepeats
        · exact absurd h hrepeats
      · rintro ⟨count, hcount, hends⟩
        cases hends
        refine .miscounted h hcount fun hlength => hother fun declared hdeclared => ?_
        cases hcount.symm.trans hdeclared
        exact hlength

theorem produces_repeating_iff (h : options.repetition ≠ .never) :
    options.Produces name base args before result after ↔
      if args.length % options.chunkSize = 0 then
        ∃ chunks results, Chunks options.chunkSize args chunks ∧
          Turns base chunks before results after ∧ results.map Form.sequence = result
      else (.error (.raggedArguments name options.chunkSize args.length), before) =
        (result, after) := by
  split
  · next heven =>
      constructor
      · rintro (⟨hsingle, -, -⟩ | ⟨hsingle, -, -⟩ | ⟨-, hleft⟩ | ⟨-, hsplit, hturns⟩)
        · exact absurd hsingle h
        · exact absurd hsingle h
        · exact absurd heven hleft
        · exact ⟨_, _, hsplit, hturns, rfl⟩
      · rintro ⟨chunks, results, hsplit, hturns, rfl⟩
        exact .inTurns h hsplit hturns
  · next hleft =>
      constructor
      · rintro (⟨hsingle, -, -⟩ | ⟨hsingle, -, -⟩ | ⟨-, -⟩ | ⟨-, hsplit, -⟩)
        · exact absurd hsingle h
        · exact absurd hsingle h
        · rfl
        · rw [hsplit.length_eq, Nat.mul_mod_left] at hleft
          exact absurd rfl hleft
      · intro hends
        cases hends
        exact .ragged h hleft

end Produces

end RuleOptions

/-- Arguments that come out even are taken in the one way there is. -/
theorem feed_chunks_iff {size : Nat} (hpositive : 0 < size) {args : List Form}
    (heven : args.length % size = 0) {name : String} {base : List Form → Run Form}
    {before after : Progress} {result : Except Fault Form} :
    ((Intake.chunks size hpositive).feed name base args).perform before = (result, after) ↔
      ∃ chunks results, Chunks size args chunks ∧ Turns base chunks before results after ∧
        results.map Form.sequence = result := by
  have hcount : args.length = args.length / size * size :=
    (Nat.div_mul_cancel (Nat.dvd_of_mod_eq_zero heven)).symm
  have hcut : ∀ {chunks : List (List Form)}, Chunks size args chunks →
      chunksOf size (args.length / size) args = chunks := by
    intro chunks hsplit
    have hturns : args.length / size = chunks.length := by
      rw [hsplit.length_eq, Nat.mul_div_cancel _ hpositive]
    rw [hturns, hsplit.chunksOf_eq]
  rw [Intake.feed, if_pos heven]
  show (Form.sequence <$> _ : Run Form).perform before = _ ↔ _
  rw [Run.perform_map, Prod.mk.injEq]
  constructor
  · rintro ⟨hresult, hafter⟩
    exact ⟨_, _, chunks_chunksOf hcount, turns_iff.mp (Prod.ext rfl hafter), hresult⟩
  · rintro ⟨chunks, results, hsplit, hturns, rfl⟩
    rw [hcut hsplit, turns_iff.mpr hturns]
    exact ⟨rfl, rfl⟩

namespace Entry

/-- What the entry puts around a base function. -/
def wrap (entry : Entry) (scene : Scene) (base : List Form → Run Form) (args : List Form) :
    Run Form :=
  if entry.deferred then do
    let feature ← scene.deduce .feature
    let body ← entry.intake.feed entry.id base args
    return HostCode.afterLoad (.quote feature) body.statements
  else entry.intake.feed entry.id base args

/-- A rule is applied as its action with that put around. -/
theorem apply_eq_wrap (entry : Entry) (scene : Scene) :
    entry.apply scene.means = entry.wrap scene (entry.action.run scene.means) := rfl

section Records

variable {entry : Entry} {rule : Rule} (hrecords : entry.Records rule)
  {base : List Form → Run Form} {args : List Form} {before after : Progress}
  {result : Except Fault Form}

include hrecords

/-- Arguments are taken in as the options of the rule declare: the intake tells
whether the rule repeats, and its arity is the number declared. -/
theorem feed_iff :
    (entry.intake.feed entry.id base args).perform before = (result, after) ↔
      rule.options.Produces rule.name base args before result after := by
  have harity : entry.intake.arity = _ := hrecords.arity
  have hrepeats : entry.intake.repeats = _ := hrecords.repeats
  rw [hrecords.id]
  cases hintake : entry.intake with
  | any =>
      rw [hintake] at harity hrepeats
      have hsingle : rule.options.repetition = .never := by simpa [Intake.repeats] using hrepeats
      rw [if_pos hsingle] at harity
      have hfits : ∀ count, rule.options.arity = some count → args.length = count :=
        fun count hcount => by cases harity.trans hcount
      rw [RuleOptions.produces_single_iff hsingle, if_pos hfits]
      rfl
  | exactly count =>
      rw [hintake] at harity hrepeats
      have hsingle : rule.options.repetition = .never := by simpa [Intake.repeats] using hrepeats
      rw [if_pos hsingle] at harity
      have hdeclared : rule.options.arity = some count := harity.symm
      rw [RuleOptions.produces_single_iff hsingle, hdeclared, Intake.feed]
      by_cases hlength : args.length = count <;> simp [hlength]
  | chunks size hpositive =>
      rw [hintake] at harity hrepeats
      have htaken : rule.options.repetition ≠ .never := by simpa [Intake.repeats] using hrepeats
      rw [if_neg htaken] at harity
      obtain rfl : size = rule.options.chunkSize := Option.some.inj harity
      rw [RuleOptions.produces_repeating_iff htaken]
      split
      · next heven => exact feed_chunks_iff hpositive heven
      · next hleft =>
          rw [Intake.feed, if_neg hleft]
          rfl

/-- The entry does as the rule declared. -/
theorem wrap_iff {scene : Scene} :
    (entry.wrap scene base args).perform before = (result, after) ↔
      rule.options.Applies rule.name base scene.frame args before result after := by
  rw [wrap, hrecords.deferred]
  cases hdeferred : rule.options.deferred with
  | false =>
      rw [if_neg Bool.false_ne_true, feed_iff hrecords]
      constructor
      · exact .atOnce hdeferred
      · rintro (⟨-, hproduced⟩ | ⟨hwaits, -⟩ | ⟨hwaits, -, -⟩)
        · exact hproduced
        · cases hdeferred.symm.trans hwaits
        · cases hdeferred.symm.trans hwaits
  | true =>
      rw [if_pos rfl, Scene.deduce, Frame.deduce]
      cases hbound : scene.frame.find? .feature with
      | none =>
          constructor
          · intro hends
            cases hends
            exact .unbound hdeferred hbound
          · rintro (⟨hdirect, -⟩ | ⟨-, -⟩ | ⟨-, hfeature, -⟩)
            · cases hdeferred.symm.trans hdirect
            · rfl
            · cases hbound.symm.trans hfeature
      | some feature =>
          show ((fun made => HostCode.afterLoad (.quote feature) made.statements) <$>
            entry.intake.feed entry.id base args : Run Form).perform before = _ ↔ _
          rw [Run.perform_map, Prod.mk.injEq]
          constructor
          · rintro ⟨rfl, hafter⟩
            exact .waiting hdeferred hbound ((feed_iff hrecords).mp (Prod.ext rfl hafter))
          · rintro (⟨hdirect, -⟩ | ⟨-, hmissing⟩ | ⟨-, hfeature, hproduced⟩)
            · cases hdeferred.symm.trans hdirect
            · cases hbound.symm.trans hmissing
            · cases hbound.symm.trans hfeature
              rw [(feed_iff hrecords).mpr hproduced]
              exact ⟨rfl, rfl⟩

end Records

end Entry

/-- A rule that is accepted is stored as declared, whatever it does. Applying it
asks for the feature first if the rule waits; then it refuses arguments of a
wrong number, with the progress untouched, and otherwise takes its turns, one
for all arguments or one for each chunk, as far as the first that fails; and
what the turns made is put in sequence, behind the loading of the feature if the
rule waits. Two chunks or more stand there as the forms they made, in order. -/
theorem Registry.define_wraps {registry larger : Registry} {rule : Rule}
    (h : registry.define rule = .ok larger) :
    ∃ entry, larger.find? rule.name = some entry ∧
      (∀ scene : Scene,
        entry.apply scene.means = entry.wrap scene (rule.action.run scene.means)) ∧
      (∀ base scene args before result after,
        (entry.wrap scene base args).perform before = (result, after) ↔
          rule.options.Applies rule.name base scene.frame args before result after) ∧
      ∀ base scene args before feature chunks forms after,
        rule.options.deferred = true → rule.options.repetition ≠ .never →
        scene.frame.find? .feature = some feature → Chunks rule.options.chunkSize args chunks →
        Turns base chunks before (.ok forms) after → 2 ≤ chunks.length →
          (entry.wrap scene base args).perform before =
            (.ok (.call "with-eval-after-load" (.quote feature :: forms)), after) ∧
          forms.length = chunks.length := by
  obtain ⟨entry, hentry, hlarger⟩ := bind_eq_ok.mp h
  cases hlarger
  have hrecords := (Entry.ofRule_eq_ok.mp hentry).2
  refine ⟨entry, ?_, fun scene => ?_, fun _ _ _ _ _ _ => Entry.wrap_iff hrecords, ?_⟩
  · rw [find?_insert, if_pos hrecords.id]
  · rw [entry.apply_eq_wrap, hrecords.action]
  · intro base scene args before feature chunks forms after hdeferred hrepeats hbound hsplit hturns
      hmany
    rw [← hturns.length_eq] at hmany
    have happlies : rule.options.Applies rule.name base scene.frame args before _ after :=
      .waiting hdeferred hbound (.inTurns hrepeats hsplit hturns)
    simp only [Except.map, Form.statements_sequence hmany] at happlies
    exact ⟨(Entry.wrap_iff hrecords).mpr happlies, hturns.length_eq⟩

/-- A rule that pairs its arguments two by two, once a feature is loaded. -/
def pairingRule : Rule :=
  { name := ":pair"
    action := .template (.call "pair" [.symbol "$1", .symbol "$2"])
    options := { arity := some 2, repetition := .declared, deferred := true } }

/-- Surroundings with the feature `f`. -/
def featureScene : Scene :=
  Settings.scene { registry := .empty } (Frame.empty.bind .feature (.symbol "f"))

/-- What one turn of that rule makes. -/
def pairCode (first second : String) : Form := .call "pair" [.symbol first, .symbol second]

theorem Registry.define_wraps_of_pairs :
    ∃ larger entry, Registry.empty.define pairingRule = .ok larger ∧
      larger.find? ":pair" = some entry ∧
      (entry.apply featureScene.means (["a", "b", "c", "d"].map .symbol)).perform {} =
        (.ok (.call "with-eval-after-load"
          [.quote (.symbol "f"), pairCode "a" "b", pairCode "c" "d"]), {}) ∧
      (entry.apply featureScene.means (["a", "b", "c"].map .symbol)).perform {} =
        (.error (.raggedArguments ":pair" 2 3), {}) := by
  have haccepted : pairingRule.isAcceptable = true := by decide
  obtain ⟨recorded, -, hdefine⟩ := define_of_acceptable haccepted
  obtain ⟨entry, hfind, happly, hwraps, hpairs⟩ := define_wraps (hdefine .empty)
  refine ⟨_, entry, hdefine .empty, hfind, ?_, ?_⟩
  · rw [happly]
    have hturns : Turns (pairingRule.action.run featureScene.means)
        [["a", "b"].map .symbol, ["c", "d"].map .symbol] {}
        (.ok [pairCode "a" "b", pairCode "c" "d"]) {} :=
      .made rfl (.made rfl .done)
    exact (hpairs _ featureScene _ {} (.symbol "f") _ _ {} rfl (by decide) rfl ⟨rfl, by decide⟩
      hturns (by decide)).1
  · rw [happly]
    refine (hwraps _ featureScene _ {} _ {}).mpr ?_
    exact .waiting rfl rfl (.ragged (by decide) (by decide))

end Rulebook
