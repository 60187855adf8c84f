import Rulebook.Expansion.Action
import Rulebook.Form.Induction
import Rulebook.Proofs.Composition

/-!
# Rules in two computations

A rule does the same in every kind of computation: it asks its means, one thing
after the other, and puts code together from the answers. So if the means of two
computations give related answers, the two come to related results. What it is for
computations to be related differs from theorem to theorem, and everything it has
to satisfy is collected in `Relating`. The walk through the rules is made here once,
for all of these.

Most relations between forms are kept by the built-in rules only, since any form
may stand in a template. Where related answers are equal answers, every rule does
the same on both sides.

An argument that is not there is a fault like others to most relations. To one it
is not, so the number of arguments that a rule looks for is kept track of.
-/

namespace Rulebook

/-! ## What rules may do -/

/-- An argument was looked for that is not there. -/
def Fault.IsMissing : Fault → Prop
  | .missingArgument _ _ => True
  | _ => False

/-- The number of leading arguments that a built-in rule looks for without asking
whether they are there. -/
def Builtin.reads : Builtin → Nat
  | .bindGlobally | .bind | .rebind | .addLocalHook | .setOption | .setLocally => 2
  | .unbind | .addHook | .hookInto | .installPackage | .require | .alsoLoad | .matchFile
  | .needExecutable | .ifPackage | .ifFeature | .ifHost | .onlyIf => 1
  | .whenLoaded | .loadAfter | .quit => 0
  | .advise => 3

/-- The number of leading arguments that an action looks for without asking whether
they are there. -/
def Action.reads : Action → Nat
  | .assign _ _ => 2
  | .builtin rule => rule.reads
  | _ => 0

/-- Whether a built-in rule puts what it is given into code for later. -/
def Builtin.postpones : Builtin → Bool
  | .addLocalHook | .setLocally | .loadAfter => true
  | _ => false

/-- Whether a built-in rule asks for an early exit. -/
def Builtin.leaves : Builtin → Bool
  | .require | .needExecutable | .ifPackage | .ifFeature | .ifHost | .onlyIf | .quit => true
  | _ => false

def Action.postpones : Action → Bool
  | .builtin rule => rule.postpones
  | _ => false

def Action.leaves : Action → Bool
  | .builtin rule => rule.leaves
  | _ => false

/-- Whether an entry makes code for later, of its own or because it waits. -/
def Entry.postpones (entry : Entry) : Bool := entry.deferred || entry.action.postpones

/-- Whether an action is one of those that the built-in rules have. -/
def Action.isNative : Action → Bool
  | .enter _ _ => true
  | .builtin _ => true
  | _ => false

/-- The slices of its arguments that a rule is given, one to a turn; none if the
arguments are refused. -/
def Intake.slices (intake : Intake) (args : List Form) : List (List Form) :=
  match intake with
  | .any => [args]
  | .exactly count => if args.length = count then [args] else []
  | .chunks size _ =>
    if args.length % size = 0 then chunksOf size (args.length / size) args else []

theorem forall₂_chunksOf {α β : Type} {relates : α → β → Prop} {items : List α} {copies : List β}
    (h : List.Forall₂ relates items copies) (size count : Nat) :
    List.Forall₂ (List.Forall₂ relates) (chunksOf size count items)
      (chunksOf size count copies) := by
  induction count generalizing items copies with
  | zero => exact .nil
  | succ count ih => exact .cons (List.forall₂_take size h) (ih (List.forall₂_drop size h))

/-! ## Related computations -/

variable {m n : Type → Type} [Monad m] [MonadExceptOf Fault m] [Monad n] [MonadExceptOf Fault n]

/-- A way to relate computations, once it is said how their results are to be
related. It is kept when they go on with related computations. -/
structure Relating (m n : Type → Type) [Monad m] [MonadExceptOf Fault m] [Monad n]
    [MonadExceptOf Fault n] where
  holds : {α β : Type} → (α → β → Prop) → m α → n β → Prop
  faults : Fault → Fault → Prop
  pure : ∀ {α β : Type} {right : α → β → Prop} {value : α} {copy : β}, right value copy →
    holds right (pure value) (pure copy)
  throw : ∀ {α β : Type} {right : α → β → Prop} {fault copy : Fault}, faults fault copy →
    holds right (throw fault) (throw copy)
  bind : ∀ {α β γ δ : Type} {between : α → β → Prop} {right : γ → δ → Prop} {first : m α}
    {second : n β} {next : α → m γ} {other : β → n δ}, holds between first second →
      (∀ value copy, between value copy → holds right (next value) (other copy)) →
        holds right (first >>= next) (second >>= other)

namespace Relating

variable (relating : Relating m n) {α β γ δ : Type}

theorem settled {right : α → β → Prop} {outcome : Except Fault α} {copy : Except Fault β}
    (h : Outcomes relating.faults right outcome copy) :
    relating.holds right (Means.settled outcome) (Means.settled copy) := by
  cases h with
  | ok hvalue => exact relating.pure hvalue
  | error hfault => exact relating.throw hfault

/-- Goes on with the value that both computations came to. -/
theorem bindEq {right : γ → δ → Prop} {first : m α} {second : n α} {next : α → m γ}
    {other : α → n δ} (h : relating.holds Eq first second)
    (hnext : ∀ value, relating.holds right (next value) (other value)) :
    relating.holds right (first >>= next) (second >>= other) :=
  relating.bind h fun value _ heq => heq ▸ hnext value

/-- A fault about one of the first `count` arguments passes, if it can come up. -/
def Excuses (args : List Form) (count : Nat) : Prop :=
  ∀ index < count, args.length ≤ index →
    relating.faults (.missingArgument index args.length) (.missingArgument index args.length)

theorem argument {related : Form → Form → Prop} {args copies : List Form} {count : Nat}
    (hargs : List.Forall₂ related args copies) (hmissing : relating.Excuses args count)
    {index : Nat} (hindex : index < count) :
    relating.holds related (Means.argument args index) (Means.argument copies index) := by
  unfold Means.argument
  rcases Nat.lt_or_ge index args.length with hin | hout
  · have hin' : index < copies.length := hargs.length_eq ▸ hin
    rw [List.getElem?_eq_getElem hin, List.getElem?_eq_getElem hin']
    exact relating.pure (hargs.get hin hin')
  · rw [List.getElem?_eq_none hout, List.getElem?_eq_none (hargs.length_eq ▸ hout),
      ← hargs.length_eq]
    exact relating.throw (hmissing index hindex hout)

variable [LawfulMonad m] [LawfulMonad n]

theorem mapM {between : α → β → Prop} {right : γ → δ → Prop} {turn : α → m γ} {other : β → n δ}
    {items : List α} {copies : List β} (hitems : List.Forall₂ between items copies)
    (h : ∀ item ∈ items, ∀ copy, between item copy →
      relating.holds right (turn item) (other copy)) :
    relating.holds (List.Forall₂ right) (items.mapM turn) (copies.mapM other) := by
  induction hitems with
  | nil => exact relating.pure .nil
  | cons hfirst _ ih =>
      rw [List.mapM_cons, List.mapM_cons]
      refine relating.bind (h _ (by simp) _ hfirst) fun first copy hone => ?_
      refine relating.bind (ih fun item hi => h item (by simp [hi])) fun rest copies hrest => ?_
      exact relating.pure (.cons hone hrest)

theorem mapM_same {turn : α → m β} {other : α → n β} {items : List α}
    (h : ∀ item ∈ items, relating.holds Eq (turn item) (other item)) :
    relating.holds Eq (items.mapM turn) (items.mapM other) := by
  have hturns : ∀ item ∈ items, ∀ copy, item = copy →
      relating.holds Eq (turn item) (other copy) := by
    rintro item hi copy rfl
    exact h item hi
  have := relating.mapM (List.forall₂_same.mpr fun _ _ => rfl) hturns
  rwa [List.forall₂_eq_eq_eq] at this

/-- What an intake makes of turns that are related slice by slice. -/
theorem feed {related member : Form → Form → Prop} (htransfers : Transfers related member)
    (hfaults : ∀ fault : Fault, ¬ fault.IsMissing → relating.faults fault fault)
    (intake : Intake) (rule : String) {turn : List Form → m Form} {other : List Form → n Form}
    {args copies : List Form} (hargs : List.Forall₂ related args copies)
    (h : ∀ slice ∈ intake.slices args, ∀ copy, List.Forall₂ related slice copy →
      relating.holds related (turn slice) (other copy)) :
    relating.holds related (intake.feed rule turn args) (intake.feed rule other copies) := by
  cases intake with
  | any => exact h args (by simp [Intake.slices]) copies hargs
  | exactly count =>
      simp only [Intake.feed, ← hargs.length_eq]
      split
      · next hcount => exact h args (by simp [Intake.slices, hcount]) copies hargs
      · exact relating.throw (hfaults _ id)
  | chunks size hpositive =>
      simp only [Intake.feed, ← hargs.length_eq]
      split
      · next heven =>
          rw [Intake.slices, if_pos heven] at h
          refine relating.bind (relating.mapM (forall₂_chunksOf hargs _ _) h) ?_
          exact fun results others hresults => relating.pure (htransfers.sequence hresults)
      · exact relating.throw (hfaults _ id)

/-! ## Built-in rules -/

/-- Early exits that return related values are related. -/
def Exits (related : Form → Form → Prop) (means : Means m) (other : Means n) : Prop :=
  ∀ {value copy : Form}, related value copy →
    relating.holds related (means.exit value) (other.exit copy)

omit [LawfulMonad m] [LawfulMonad n] in
/-- Means with which built-in rules do related things. The key of early exits is
none that they ask for. -/
structure Serves (related member : Form → Form → Prop) (means : Means m) (other : Means n) :
    Prop where
  transfers : Transfers related member
  deduce : ∀ {key : Key}, key ≠ .quit →
    relating.holds related (means.deduce key) (other.deduce key)
  enter : ∀ (scope : Scope) {targets copy : Form} {body copies : List Form},
    related targets copy → List.Forall₂ related body copies →
      relating.holds related (means.enter scope targets body) (other.enter scope copy copies)
  unknownTarget : ∀ {form twin : Form}, related form twin →
    relating.faults (.unknownTarget form) (.unknownTarget twin)
  expectedSymbol : ∀ (rule : String) {form twin : Form}, related form twin →
    relating.faults (.expectedSymbol rule form) (.expectedSymbol rule twin)
  fault : ∀ fault : Fault, ¬ fault.IsMissing → relating.faults fault fault

namespace Serves

variable {relating} {related member : Form → Form → Prop} {means : Means m} {other : Means n}
  {args copies : List Form}

omit [LawfulMonad m] [LawfulMonad n]

theorem unlessExit (h : relating.Serves related member means other)
    (hexit : relating.Exits related means other) {condition copy : Form}
    (hcondition : related condition copy) :
    relating.holds related (Builtin.unlessExit means condition)
      (Builtin.unlessExit other copy) :=
  relating.bind (hexit h.transfers.nil) fun _ _ hthrow =>
    relating.pure (h.transfers.call (by decide) (.cons hcondition (.cons hthrow .nil)))

theorem emit (h : relating.Serves related member means other) {builtin : Builtin}
    (hlate : builtin.postpones = true → TransfersLater related member)
    (hexit : builtin.leaves = true → relating.Exits related means other)
    (hargs : List.Forall₂ related args copies) (hmissing : relating.Excuses args builtin.reads) :
    relating.holds related (builtin.emit means args) (builtin.emit other copies) := by
  have harg : ∀ index < builtin.reads,
      relating.holds related (Means.argument args index) (Means.argument copies index) :=
    fun index hindex => relating.argument hargs hmissing hindex
  have hcode := h.transfers
  cases builtin with
  | bindGlobally =>
      refine relating.bind (harg 0 (by decide)) fun key key' hkey => ?_
      refine relating.bind (harg 1 (by decide)) fun command command' hcommand => relating.pure ?_
      exact hcode.call (by decide)
        (.cons (hcode.keyCode hkey) (.cons (hcode.functionOf hcommand) .nil))
  | bind =>
      refine relating.bind (h.deduce (by decide)) fun map map' hmap => ?_
      refine relating.bind (harg 0 (by decide)) fun key key' hkey => ?_
      refine relating.bind (harg 1 (by decide)) fun command command' hcommand => relating.pure ?_
      exact hcode.defineKey hmap (hcode.keyCode hkey) (hcode.functionOf hcommand)
  | unbind =>
      refine relating.bind (h.deduce (by decide)) fun map map' hmap => ?_
      refine relating.bind (harg 0 (by decide)) fun key key' hkey => relating.pure ?_
      exact hcode.defineKey hmap (hcode.keyCode hkey) hcode.nil
  | rebind =>
      refine relating.bind (h.deduce (by decide)) fun map map' hmap => ?_
      refine relating.bind (harg 1 (by decide)) fun command command' hcommand => ?_
      refine relating.bind (harg 0 (by decide)) fun key key' hkey => relating.pure ?_
      exact hcode.rebind hmap (hcode.keyCode hkey) (hcode.functionOf hcommand)
  | addHook =>
      refine relating.bind (h.deduce (by decide)) fun hook hook' hhook => ?_
      refine relating.bind (harg 0 (by decide)) fun command command' hcommand => relating.pure ?_
      exact hcode.addHook hhook (hcode.functionOf hcommand)
  | hookInto =>
      refine relating.bind (h.deduce (by decide)) fun mode mode' hmode => ?_
      refine relating.bind (harg 0 (by decide)) fun name name' hname => ?_
      have hhook := hcode.hookOf ":hook-into" (h.expectedSymbol ":hook-into") hname
      refine relating.bind (relating.settled hhook) fun hook hook' hhook => relating.pure ?_
      exact hcode.addHook hhook (hcode.functionOf hmode)
  | addLocalHook =>
      refine relating.bind (h.deduce (by decide)) fun hook hook' hhook => ?_
      refine relating.bind (harg 0 (by decide)) fun name name' hname => ?_
      refine relating.bind (harg 1 (by decide)) fun command command' hcommand => relating.pure ?_
      have hinner := hcode.call (show "add-hook" ∈ HostCode.heads by decide)
        (.cons (hcode.quoted hname) (.cons (hcode.functionOf hcommand)
          (.cons hcode.nil (.cons hcode.t .nil))))
      exact hcode.addHook hhook (hcode.thunk (hlate rfl) hinner)
  | setOption =>
      refine relating.bind (harg 0 (by decide)) fun target target' htarget => ?_
      refine relating.bind (harg 1 (by decide)) fun value value' hvalue => ?_
      exact relating.settled (hcode.assign_optionPlace h.unknownTarget htarget hvalue)
  | setLocally =>
      refine relating.bind (h.deduce (by decide)) fun hook hook' hhook => ?_
      refine relating.bind (harg 0 (by decide)) fun target target' htarget => ?_
      refine relating.bind (harg 1 (by decide)) fun value value' hvalue => ?_
      have hassigned := hcode.assign_localPlace h.unknownTarget htarget hvalue
      refine relating.bind (relating.settled hassigned) fun code code' hassigned => ?_
      exact relating.pure (hcode.addHook hhook (hcode.thunk (hlate rfl) hassigned))
  | installPackage =>
      refine relating.bind (harg 0 (by decide)) fun package package' hpackage => ?_
      exact relating.pure (hcode.installPackage (hcode.quoted hpackage))
  | require =>
      refine relating.bind (hexit rfl hcode.nil) fun exit exit' hthrow => ?_
      refine relating.bind (harg 0 (by decide)) fun feature feature' hfeature => relating.pure ?_
      have hload := hcode.call (show "require" ∈ HostCode.heads by decide)
        (.cons (hcode.quoted hfeature) (.cons hcode.nil (.cons hcode.t .nil)))
      exact hcode.call (by decide) (.cons hload (.cons hthrow .nil))
  | alsoLoad =>
      refine relating.bind (harg 0 (by decide)) fun feature feature' hfeature => relating.pure ?_
      exact hcode.call (by decide) (.cons (hcode.quoted hfeature) .nil)
  | whenLoaded => exact relating.pure (hcode.sequence hargs)
  | loadAfter =>
      cases hargs with
      | nil => exact relating.throw (h.fault _ id)
      | cons hfeatures hbody =>
          have hwaiting := (hlate rfl).afterAll (hcode.elements hfeatures) hbody
          exact relating.pure (hcode.sequence hwaiting)
  | matchFile =>
      refine relating.bind (h.deduce (by decide)) fun mode mode' hmode => ?_
      refine relating.bind (harg 0 (by decide)) fun pattern pattern' hpattern => relating.pure ?_
      have hlist := hcode.quote (hcode.name (show "auto-mode-alist" ∈ HostCode.names by decide))
      have hpair := hcode.call (show "cons" ∈ HostCode.heads by decide)
        (.cons hpattern (.cons (hcode.quoted hmode) .nil))
      exact hcode.call (by decide) (.cons hlist (.cons hpair .nil))
  | needExecutable =>
      refine relating.bind (harg 0 (by decide)) fun name name' hname => ?_
      exact h.unlessExit (hexit rfl) (hcode.call (by decide) (.cons hname .nil))
  | ifPackage =>
      refine relating.bind (harg 0 (by decide)) fun name name' hname => ?_
      exact h.unlessExit (hexit rfl) (hcode.call (by decide) (.cons (hcode.quoted hname) .nil))
  | ifFeature =>
      refine relating.bind (harg 0 (by decide)) fun name name' hname => ?_
      exact h.unlessExit (hexit rfl) (hcode.call (by decide) (.cons (hcode.quoted hname) .nil))
  | ifHost =>
      refine relating.bind (harg 0 (by decide)) fun name name' hname => ?_
      have hsystem := hcode.call (show "system-name" ∈ HostCode.heads by decide) .nil
      exact h.unlessExit (hexit rfl) (hcode.call (by decide) (.cons hsystem (.cons hname .nil)))
  | onlyIf =>
      refine relating.bind (harg 0 (by decide)) fun condition condition' hcondition => ?_
      exact h.unlessExit (hexit rfl) hcondition
  | quit =>
      match hargs with
      | .nil => exact hexit rfl hcode.nil
      | .cons hvalue .nil => exact hexit rfl hvalue
      | .cons _ (.cons _ hrest) =>
          simp only [Builtin.emit, List.length_cons, hrest.length_eq]
          exact relating.throw (h.fault _ id)
  | advise =>
      refine relating.bind (harg 0 (by decide)) fun name name' hname => ?_
      refine relating.bind (harg 1 (by decide)) fun how how' hhow => ?_
      refine relating.bind (harg 2 (by decide)) fun command command' hcommand => relating.pure ?_
      exact hcode.call (by decide)
        (.cons (hcode.quoted hname) (.cons hhow (.cons (hcode.functionOf hcommand) .nil)))

theorem run (h : relating.Serves related member means other) {action : Action}
    (haction : action.isNative = true)
    (hlate : action.postpones = true → TransfersLater related member)
    (hexit : action.leaves = true → relating.Exits related means other)
    (hargs : List.Forall₂ related args copies) (hmissing : relating.Excuses args action.reads) :
    relating.holds related (action.run means args) (action.run other copies) := by
  cases action with
  | enter rule scope =>
      cases hargs with
      | nil => exact relating.throw (h.fault _ id)
      | cons htargets hbody => exact h.enter scope htargets hbody
  | builtin rule => exact h.emit hlate hexit hargs hmissing
  | _ => cases haction

variable [LawfulMonad m] [LawfulMonad n]

/-- An entry applied in two computations, if its action does related things with
the slices. -/
theorem apply_of_run (h : relating.Serves related member means other) {entry : Entry}
    (hlate : entry.deferred = true → TransfersLater related member)
    (hargs : List.Forall₂ related args copies)
    (hrun : ∀ slice ∈ entry.intake.slices args, ∀ copy, List.Forall₂ related slice copy →
      relating.holds related (entry.action.run means slice) (entry.action.run other copy)) :
    relating.holds related (entry.apply means args) (entry.apply other copies) := by
  have hproduce : relating.holds related (entry.produce means args)
      (entry.produce other copies) :=
    relating.feed h.transfers h.fault entry.intake entry.id hargs hrun
  unfold Entry.apply
  split
  · next hdeferred =>
      refine relating.bind (h.deduce (by decide)) fun feature feature' hfeature => ?_
      refine relating.bind hproduce fun body body' hbody => relating.pure ?_
      exact h.transfers.afterLoad (hlate hdeferred) hfeature (h.transfers.statements hbody)
  · exact hproduce

/-- A built-in rule applied in two computations. -/
theorem apply (h : relating.Serves related member means other) {entry : Entry}
    (hentry : entry.action.isNative = true)
    (hlate : entry.postpones = true → TransfersLater related member)
    (hexit : entry.action.leaves = true → relating.Exits related means other)
    (hargs : List.Forall₂ related args copies)
    (hmissing : ∀ slice ∈ entry.intake.slices args, relating.Excuses slice entry.action.reads) :
    relating.holds related (entry.apply means args) (entry.apply other copies) := by
  refine h.apply_of_run (fun hdeferred => hlate ?_) hargs fun slice hslice copy hcopy => ?_
  · rw [Entry.postpones, hdeferred, Bool.true_or]
  · refine h.run hentry (fun haction => hlate ?_) hexit hcopy (hmissing slice hslice)
    rw [Entry.postpones, haction, Bool.or_true]

end Serves

/-! ## Equal answers -/

omit [LawfulMonad m] [LawfulMonad n] in
/-- Means that give equal answers. -/
structure Agrees (means : Means m) (other : Means n) : Prop where
  registry : means.registry = other.registry
  deduce : ∀ key, relating.holds Eq (means.deduce key) (other.deduce key)
  exit : ∀ value, relating.holds Eq (means.exit value) (other.exit value)
  expandAll : ∀ forms, relating.holds Eq (means.expandAll forms) (other.expandAll forms)
  enter : ∀ scope targets body,
    relating.holds Eq (means.enter scope targets body) (other.enter scope targets body)
  fault : ∀ fault : Fault, ¬ fault.IsMissing → relating.faults fault fault

namespace Agrees

variable {relating} {means : Means m} {other : Means n}

omit [LawfulMonad m] [LawfulMonad n]

theorem expandBody (h : relating.Agrees means other) (forms : List Form) :
    relating.holds Eq (means.expandBody forms) (other.expandBody forms) :=
  relating.bindEq (h.expandAll forms) fun _ => relating.pure rfl

theorem serves (h : relating.Agrees means other) : relating.Serves Eq Eq means other where
  transfers := .eq
  deduce _ := h.deduce _
  enter scope targets copy body copies htargets hbody := by
    rw [List.forall₂_eq_eq_eq] at hbody
    subst htargets hbody
    exact h.enter scope targets body
  unknownTarget hform := hform ▸ h.fault _ id
  expectedSymbol rule _ _ hform := hform ▸ h.fault _ id
  fault := h.fault

theorem exits (h : relating.Agrees means other) : relating.Exits Eq means other :=
  fun hvalue => hvalue ▸ h.exit _

theorem fillSymbol (h : relating.Agrees means other) (args : List Form) (name : String) :
    relating.holds Eq (Template.fillSymbol means args name)
      (Template.fillSymbol other args name) := by
  unfold Template.fillSymbol
  split
  · exact relating.pure rfl
  · exact relating.pure rfl
  · exact h.deduce _
  · exact h.exit _
  · rw [h.registry]
    exact relating.pure rfl
  · exact relating.pure rfl

theorem fillItems (args : List Form) {items : List Form}
    (hitems : ∀ item ∈ items,
      relating.holds Eq (Template.fill means args item) (Template.fill other args item)) :
    relating.holds Eq (Template.fillItems means args items)
      (Template.fillItems other args items) := by
  induction items with
  | nil =>
      rw [Template.fillItems, Template.fillItems]
      exact relating.pure rfl
  | cons item items ih =>
      have hrest := ih fun one ho => hitems one (by simp [ho])
      rw [Template.fillItems, Template.fillItems]
      split
      · exact relating.bindEq hrest fun _ => relating.pure rfl
      · refine relating.bindEq (hitems item (by simp)) fun filled => ?_
        exact relating.bindEq hrest fun _ => relating.pure rfl

theorem fill (h : relating.Agrees means other) (args : List Form) (pattern : Form) :
    relating.holds Eq (Template.fill means args pattern) (Template.fill other args pattern) := by
  induction pattern using Form.induct with
  | symbol name =>
      rw [Template.fill, Template.fill]
      exact h.fillSymbol args name
  | text content =>
      rw [Template.fill, Template.fill]
      exact relating.pure rfl
  | int value =>
      rw [Template.fill, Template.fill]
      exact relating.pure rfl
  | quote inner ih =>
      rw [Template.fill, Template.fill]
      exact relating.bindEq ih fun _ => relating.pure rfl
  | function inner ih =>
      rw [Template.fill, Template.fill]
      exact relating.bindEq ih fun _ => relating.pure rfl
  | list items ih =>
      rw [Template.fill, Template.fill]
      exact relating.bindEq (fillItems args ih) fun _ => relating.pure rfl
  | vector items ih =>
      rw [Template.fill, Template.fill]
      exact relating.bindEq (fillItems args ih) fun _ => relating.pure rfl

/-- Every action does the same with equal answers. -/
theorem run (h : relating.Agrees means other) (action : Action) {args : List Form}
    (hmissing : relating.Excuses args action.reads) :
    relating.holds Eq (action.run means args) (action.run other args) := by
  have hargs : List.Forall₂ Eq args args := List.forall₂_same.mpr fun _ _ => rfl
  cases action with
  | template pattern => exact h.fill args pattern
  | enter rule scope =>
      exact h.serves.run rfl (fun hpostpones => nomatch hpostpones) (fun _ => h.exits) hargs
        hmissing
  | body => exact h.expandBody args
  | exit => exact h.exit _
  | assign reader writer =>
      refine relating.bindEq (relating.argument hargs hmissing Nat.two_pos) fun target => ?_
      refine relating.bindEq (relating.argument hargs hmissing Nat.one_lt_two) fun value => ?_
      refine relating.settled
        (Transfers.eq.assign ?_ ?_ (fun hform => hform ▸ h.fault _ id) rfl rfl)
      · exact fun hkey => congrArg _ hkey
      · exact fun hkey hvalue => congrArg₂ _ hkey hvalue
  | fail rule reason => exact relating.throw (h.fault _ id)
  | builtin rule => exact h.serves.run rfl (fun _ => .eq) (fun _ => h.exits) hargs hmissing

variable [LawfulMonad m] [LawfulMonad n]

/-- Every rule does the same with equal answers. -/
theorem apply (h : relating.Agrees means other) (entry : Entry) {args : List Form}
    (hmissing : ∀ slice ∈ entry.intake.slices args, relating.Excuses slice entry.action.reads) :
    relating.holds Eq (entry.apply means args) (entry.apply other args) := by
  refine h.serves.apply_of_run (fun _ => .eq) (List.forall₂_same.mpr fun _ _ => rfl) ?_
  intro slice hslice copy hcopy
  rw [List.forall₂_eq_eq_eq] at hcopy
  subst hcopy
  exact h.run entry.action (hmissing slice hslice)

end Agrees

end Relating

end Rulebook
