import Mathlib.Data.List.TakeWhile
import Mathlib.Data.String.Basic
import Rulebook.Builtin.Catalogue
import Rulebook.Proofs.Sequencing

/-!
# What a registry holds after any history

A registry is changed by definitions only, one at a time or in batches, and
each of them is accepted or refused for what it declares; what the registry
holds at that moment has no say in it. So a history comes down to the rules
that were accepted in the course of it, and what the registry holds can be read
off that list: under each name the last rule of that name, as it was declared,
and nothing else.

A refused definition leaves everything as it was. A batch goes as far as its
first refused rule, and those before it have been entered one by one.
-/

namespace Rulebook

/-! ## Which rules are accepted -/

/-- The number of arguments to a turn that the options ask for, zero if they
tell none. -/
def RuleOptions.chunkSize (options : RuleOptions) : Nat :=
  match options.repetition with
  | .never => 0
  | .declared => options.arity.getD 0
  | .every size => size

/-- Whether a rule is accepted. -/
def Rule.isAcceptable (rule : Rule) : Bool :=
  Rule.isName rule.name &&
    (rule.options.repetition = .never || 0 < rule.options.chunkSize)

/-- `Refused rule fault`: the rule is refused, and this is the reason. A name
that does not read back is the first one. -/
inductive Rule.Refused (rule : Rule) : Fault → Prop
  | name (malformed : Rule.isName rule.name = false) : Refused rule (.malformedName rule.name)
  | size (named : Rule.isName rule.name = true) (repeats : rule.options.repetition ≠ .never)
      (none : rule.options.chunkSize = 0) : Refused rule (.noChunkSize rule.name)

/-- The entry says what the rule declared, in every field. -/
structure Entry.Records (entry : Entry) (rule : Rule) : Prop where
  id : entry.id = rule.name
  action : entry.action = rule.action
  arity : entry.arity = if rule.options.repetition = .never then rule.options.arity
    else some rule.options.chunkSize
  repeats : entry.repeats = decide (rule.options.repetition ≠ .never)
  deferred : entry.deferred = rule.options.deferred
  indent : entry.indent = rule.options.indent
  signature : entry.signature = rule.options.signature
  documentation : entry.documentation = rule.options.documentation
  shorthand : entry.shorthand = rule.options.shorthand
  debugShape : entry.debugShape = rule.options.debugShape

namespace Intake

theorem ofSize_eq_ok {rule : String} {size : Nat} {intake : Intake} :
    ofSize rule size = .ok intake ↔
      0 < size ∧ intake.arity = some size ∧ intake.repeats = true := by
  unfold ofSize
  split
  · next hpos =>
      constructor
      · intro h
        cases h
        exact ⟨hpos, rfl, rfl⟩
      · rintro ⟨-, harity, hrepeats⟩
        cases intake with
        | any => cases hrepeats
        | exactly count => cases hrepeats
        | chunks other positive =>
            cases harity
            rfl
  · next hzero => simp [hzero]

/-- An intake is known by its arity and by whether it repeats. -/
theorem ofOptions_eq_ok {rule : String} {options : RuleOptions} {intake : Intake} :
    ofOptions rule options = .ok intake ↔
      (options.repetition = .never ∨ 0 < options.chunkSize) ∧
      (intake.arity = if options.repetition = .never then options.arity
        else some options.chunkSize) ∧
      intake.repeats = decide (options.repetition ≠ .never) := by
  unfold ofOptions RuleOptions.chunkSize
  cases hrepetition : options.repetition with
  | never =>
      cases harity : options.arity <;> cases intake <;> simp [arity, repeats, eq_comm]
  | declared =>
      cases harity : options.arity with
      | none => simp
      | some size => simp [ofSize_eq_ok]
  | every size => simp [ofSize_eq_ok]

theorem ofOptions_eq_error {rule : String} {options : RuleOptions} {fault : Fault} :
    ofOptions rule options = .error fault ↔
      options.repetition ≠ .never ∧ options.chunkSize = 0 ∧ fault = .noChunkSize rule := by
  unfold ofOptions RuleOptions.chunkSize
  cases options.repetition with
  | never => cases options.arity <;> simp
  | declared =>
      cases options.arity with
      | none => simp [eq_comm]
      | some size =>
          unfold ofSize
          split <;> simp <;> grind
  | every size =>
      unfold ofSize
      split <;> simp <;> grind

end Intake

namespace Entry

theorem ofRule_of_malformed {rule : Rule} (h : Rule.isName rule.name = false) :
    ofRule rule = .error (.malformedName rule.name) := by
  unfold ofRule
  rw [h]
  rfl

/-- A rule that is accepted gets the entry that records it, and no other. -/
theorem ofRule_eq_ok {rule : Rule} {entry : Entry} :
    ofRule rule = .ok entry ↔ rule.isAcceptable = true ∧ entry.Records rule := by
  cases hname : Rule.isName rule.name with
  | false => simp [ofRule_of_malformed hname, Rule.isAcceptable, hname]
  | true =>
      have hacceptable : rule.isAcceptable = true ↔
          rule.options.repetition = .never ∨ 0 < rule.options.chunkSize := by
        simp [Rule.isAcceptable, hname]
      unfold ofRule
      rw [hname, hacceptable]
      constructor
      · intro h
        obtain ⟨intake, hintake, hentry⟩ := bind_eq_ok.mp h
        cases hentry
        obtain ⟨hsize, harity, hrepeats⟩ := Intake.ofOptions_eq_ok.mp hintake
        exact ⟨hsize, rfl, rfl, harity, hrepeats, rfl, rfl, rfl, rfl, rfl, rfl⟩
      · rintro ⟨hsize, hrecords⟩
        have hintake : Intake.ofOptions rule.name rule.options = .ok entry.intake :=
          Intake.ofOptions_eq_ok.mpr ⟨hsize, hrecords.arity, hrecords.repeats⟩
        refine bind_eq_ok.mpr ⟨entry.intake, hintake, ?_⟩
        obtain ⟨id, action, intake, deferred, indent, signature, documentation, shorthand,
          debugShape⟩ := entry
        obtain ⟨rfl, rfl, -, -, rfl, rfl, rfl, rfl, rfl, rfl⟩ := hrecords
        rfl

theorem ofRule_eq_error {rule : Rule} {fault : Fault} :
    ofRule rule = .error fault ↔ rule.Refused fault := by
  constructor
  · intro h
    cases hname : Rule.isName rule.name with
    | false =>
        rw [ofRule_of_malformed hname] at h
        cases h
        exact .name hname
    | true =>
        unfold ofRule at h
        rw [hname] at h
        cases hintake : Intake.ofOptions rule.name rule.options with
        | ok intake =>
            rw [hintake] at h
            cases h
        | error other =>
            rw [hintake] at h
            cases h
            obtain ⟨hrepeats, hnone, rfl⟩ := Intake.ofOptions_eq_error.mp hintake
            exact .size hname hrepeats hnone
  · intro h
    cases h with
    | name hname => exact ofRule_of_malformed hname
    | size hname hrepeats hnone =>
        unfold ofRule
        rw [hname, Intake.ofOptions_eq_error.mpr ⟨hrepeats, hnone, rfl⟩]
        rfl

end Entry

/-! ## Histories -/

/-- What a registry can be asked for. -/
inductive Change where
  | define (rule : Rule)
  | install (rules : List Rule)

/-- What becomes of a registry that is asked for a change. -/
def Change.make (registry : Registry) : Change → Except Fault Unit × Registry
  | .define rule =>
    match registry.define rule with
    | .ok larger => (.ok (), larger)
    | .error fault => (.error fault, registry)
  | .install rules => registry.install rules

/-- The rules of a change that are accepted: of a batch, those before the first
that is not. -/
def Change.accepted : Change → List Rule
  | .define rule => if rule.isAcceptable then [rule] else []
  | .install rules => rules.takeWhile Rule.isAcceptable

theorem Rule.Refused.isAcceptable_eq_false {rule : Rule} {fault : Fault} (h : rule.Refused fault) :
    rule.isAcceptable = false := by
  cases h with
  | name hname => simp [isAcceptable, hname]
  | size _ hrepeats hnone => simp [isAcceptable, hrepeats, hnone]

namespace Registry

/-- The registry after changes, whether or not they succeed. -/
def after (registry : Registry) (history : List Change) : Registry :=
  history.foldl (fun reached change => (change.make reached).2) registry

/-- All rules accepted in the course of a history, in order. -/
def acceptedIn (history : List Change) : List Rule := history.flatMap Change.accepted

/-! A definition is decided by the rule alone. -/

theorem define_of_acceptable {rule : Rule} (h : rule.isAcceptable = true) :
    ∃ entry : Entry, entry.Records rule ∧
      ∀ registry : Registry, registry.define rule = .ok (registry.insert entry) := by
  cases hof : Entry.ofRule rule with
  | ok entry =>
      refine ⟨entry, (Entry.ofRule_eq_ok.mp hof).2, fun registry => ?_⟩
      rw [define, hof]
      rfl
  | error fault => exact absurd h (by simp [(Entry.ofRule_eq_error.mp hof).isAcceptable_eq_false])

theorem define_eq_error {registry : Registry} {rule : Rule} {fault : Fault} :
    registry.define rule = .error fault ↔ rule.Refused fault := by
  rw [← Entry.ofRule_eq_error, define]
  cases Entry.ofRule rule <;> simp [bind, Except.bind, pure, Except.pure]

theorem exists_refused {rule : Rule} (h : rule.isAcceptable = false) :
    ∃ fault, rule.Refused fault := by
  cases hof : Entry.ofRule rule with
  | ok entry =>
      rw [(Entry.ofRule_eq_ok.mp hof).1] at h
      cases h
  | error fault => exact ⟨fault, Entry.ofRule_eq_error.mp hof⟩

theorem find?_insert (registry : Registry) (entry : Entry) (id : String) :
    (registry.insert entry).find? id =
      if entry.id = id then some entry else registry.find? id := by
  unfold find? insert
  rw [List.find?_cons, List.find?_filter]
  by_cases h : entry.id = id
  · simp [h]
  · rw [if_neg h, beq_false_of_ne h]
    refine congrArg (List.find? · registry.entries) (funext fun other => ?_)
    grind

/-! ## What one change makes of what a registry holds -/

/-- What the registry holds is what these rules declare, the last of each name,
and it holds that once. -/
structure Holds (registry : Registry) (rules : List Rule) : Prop where
  find? : ∀ {id : String} {entry : Entry}, registry.find? id = some entry ↔
    ∃ rule, (rules.filter (·.name = id)).getLast? = some rule ∧ entry.Records rule
  acceptable : ∀ rule ∈ rules, rule.isAcceptable = true
  distinct : (registry.entries.map (·.id)).Nodup

theorem holds_empty : empty.Holds [] where
  find? := by simp [Registry.find?, empty]
  acceptable := by simp
  distinct := by simp [empty]

namespace Holds

variable {registry : Registry} {rules : List Rule}

/-- A rule has one entry only, so what is found under the name of the rule put in
is the entry put in. -/
theorem insert (h : registry.Holds rules) {rule : Rule} (hrule : rule.isAcceptable = true)
    {entry : Entry} (hrecords : entry.Records rule) :
    (registry.insert entry).Holds (rules ++ [rule]) where
  find? := by
    intro id found
    rw [find?_insert, hrecords.id, List.filter_append, List.filter_singleton]
    by_cases hname : rule.name = id
    · have hof := Entry.ofRule_eq_ok.mpr ⟨hrule, hrecords⟩
      have hsame : found.Records rule ↔ entry = found := by
        constructor
        · intro hfound
          have hother := Entry.ofRule_eq_ok.mpr ⟨hrule, hfound⟩
          rw [hof] at hother
          cases hother
          rfl
        · rintro rfl
          exact hrecords
      simp [hname, List.getLast?_append, hsame]
    · simp [hname, h.find?]
  acceptable := by
    intro one hone
    rcases List.mem_append.mp hone with hone | hone
    · exact h.acceptable one hone
    · rw [List.mem_singleton.mp hone]
      exact hrule
  distinct := by
    show (entry.id :: (registry.entries.filter (·.id != entry.id)).map (·.id)).Nodup
    rw [List.nodup_cons]
    constructor
    · intro hmem
      obtain ⟨other, hother, hid⟩ := List.mem_map.mp hmem
      have hne := (List.mem_filter.mp hother).2
      rw [hid] at hne
      simp at hne
    · exact h.distinct.sublist (List.filter_sublist.map _)

theorem install (h : registry.Holds rules) (batch : List Rule) :
    (registry.install batch).2.Holds (rules ++ batch.takeWhile Rule.isAcceptable) := by
  induction batch generalizing registry rules with
  | nil =>
      rw [List.takeWhile_nil, List.append_nil]
      exact h
  | cons rule batch ih =>
      cases hrule : rule.isAcceptable with
      | true =>
          obtain ⟨entry, hrecords, hdefine⟩ := define_of_acceptable hrule
          have hrest := ih (h.insert hrule hrecords)
          rw [Registry.install, hdefine, List.takeWhile_cons, hrule, if_pos rfl]
          rwa [List.append_assoc] at hrest
      | false =>
          obtain ⟨fault, hrefused⟩ := exists_refused hrule
          rw [Registry.install, define_eq_error.mpr hrefused, List.takeWhile_cons, hrule,
            if_neg Bool.false_ne_true, List.append_nil]
          exact h

/-- A definition is a batch of one. -/
theorem make (h : registry.Holds rules) (change : Change) :
    (change.make registry).2.Holds (rules ++ change.accepted) := by
  cases change with
  | install batch => exact h.install batch
  | define rule =>
      cases hrule : rule.isAcceptable with
      | true =>
          obtain ⟨entry, hrecords, hdefine⟩ := define_of_acceptable hrule
          simp only [Change.make, Change.accepted, hdefine, hrule, if_true]
          exact h.insert hrule hrecords
      | false =>
          obtain ⟨fault, hrefused⟩ := exists_refused hrule
          simp only [Change.make, Change.accepted, define_eq_error.mpr hrefused, hrule]
          simpa using h

theorem after (h : registry.Holds rules) (history : List Change) :
    (registry.after history).Holds (rules ++ acceptedIn history) := by
  induction history generalizing registry rules with
  | nil => simpa [Registry.after, acceptedIn] using h
  | cons change history ih =>
      have hrest := ih (h.make change)
      rwa [List.append_assoc] at hrest

/-- Every entry stands under its own name, and takes its arguments in turns only
if a turn has a positive size. -/
theorem entry_sound (h : registry.Holds rules) {id : String} {entry : Entry}
    (hfind : registry.find? id = some entry) :
    entry.id = id ∧ Rule.isName entry.id = true ∧
      (entry.repeats = true → ∃ size, entry.arity = some size ∧ 0 < size) := by
  obtain ⟨rule, hlast, hrecords⟩ := h.find?.mp hfind
  obtain ⟨hmem, hname⟩ := List.mem_filter.mp (List.mem_of_getLast? hlast)
  have haccepted := h.acceptable rule hmem
  simp only [Rule.isAcceptable, Bool.and_eq_true, Bool.or_eq_true, decide_eq_true_eq] at haccepted
  obtain ⟨hvalid, hsize⟩ := haccepted
  refine ⟨hrecords.id.trans (by simpa using hname), by rw [hrecords.id, hvalid], fun hrepeats => ?_⟩
  rw [hrecords.repeats, decide_eq_true_eq] at hrepeats
  refine ⟨rule.options.chunkSize, ?_, hsize.resolve_left hrepeats⟩
  rw [hrecords.arity, if_neg hrepeats]

end Holds

/-! ## Batches -/

end Registry

/-! ## The names in order -/

namespace Text

end Text

namespace Registry

end Registry

end Rulebook
