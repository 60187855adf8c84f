import Mathlib.Data.List.Forall2
import Rulebook.Builtin.Emission

/-!
# Code made from related forms

The built-in rules put code together from the forms they are given, the names
that the context holds and a few names of their own. What they look at on the way
is little: of what kind a form is, the name of a bare symbol, the items of a list.
So if two rules' worth of forms are related, and the relation cannot be seen by
looking that far and is not lost when a call is put around forms, the code made
from the ones is related to the code made from the others.

`Transfers` lists what a relation has to satisfy for that, and each piece of host
code is gone through once. A property of forms is the relation of a form that has
it to itself. Code that the host evaluates later is set apart, since not every
relation passes to it.

The items of related lists may be related in a weaker sense than the lists, for
the tag of a throw is no form like others. All that a rule can do with such an item
is to have code wait for it.
-/

namespace Rulebook

/-- The names that rules and setups write out. -/
def HostCode.names : List String :=
  ["add-hook", "add-to-list", "advice-add", "append", "assq", "auto-mode-alist", "catch", "cons",
    "custom-get", "custom-load-symbol", "custom-set", "define-key", "dolist", "executable-find",
    "featurep", "funcall", "get", "global-set-key", "if", "kbd", "key", "lambda", "let", "list",
    "member", "nil", "or", "package-archive-contents", "package-install", "package-installed-p",
    "package-refresh-contents", "progn", "remove", "require", "set-default", "setq-local",
    "setup--old", "setup--value", "string=", "symbol-value", "system-name", "t", "throw", "unless",
    "where-is-internal", "with-eval-after-load"]

/-- The heads of the lists that the host evaluates later. -/
def HostCode.postponing : List String := ["lambda", "with-eval-after-load"]

/-- The names by which rules call what is evaluated at once and goes on. -/
def HostCode.heads : List String :=
  names.filter fun name => name ∉ postponing ∧ name ≠ "throw"

/-- Two forms that a rule which looks at them takes for the same, with items of
lists that are related as `member` says. Of what is quoted a rule sees whether it
is a symbol. -/
inductive Form.Alike (member : Form → Form → Prop) : Form → Form → Prop
  | symbol (name : String) : Alike member (.symbol name) (.symbol name)
  | text (content : String) : Alike member (.text content) (.text content)
  | int (value : Int64) : Alike member (.int value) (.int value)
  | name (one two : String) : Alike member (.quote (.symbol one)) (.quote (.symbol two))
  | quote {inner twin : Form} (unnamed : inner.symbol? = none) (unnamed' : twin.symbol? = none) :
      Alike member (.quote inner) (.quote twin)
  | function (inner twin : Form) : Alike member (.function inner) (.function twin)
  | list {items twins : List Form} (each : List.Forall₂ member items twins) :
      Alike member (.list items) (.list twins)
  | vector (items twins : List Form) : Alike member (.vector items) (.vector twins)

/-- A form is like itself. -/
theorem Form.Alike.refl {member : Form → Form → Prop} {form : Form}
    (h : ∀ items, form = .list items → ∀ item ∈ items, member item item) :
    form.Alike member form := by
  cases form with
  | symbol name => exact .symbol name
  | text content => exact .text content
  | int value => exact .int value
  | quote inner =>
      cases inner with
      | symbol name => exact .name name name
      | _ => exact .quote rfl rfl
  | function inner => exact .function inner inner
  | list items => exact .list (List.forall₂_same.mpr (h items rfl))
  | vector items => exact .vector items items

theorem Form.exists_call_of_head? {form : Form} {head : String} (h : form.head? = some head) :
    ∃ args, form = .call head args := by
  obtain ⟨⟨other, args⟩, hcall, rfl⟩ := Option.map_eq_some_iff.mp h
  unfold call? at hcall
  split at hcall
  · cases hcall
    exact ⟨args, rfl⟩
  · cases hcall

/-- A form that is no block is its own statement, unless it is `nil`. -/
theorem Form.statements_of_head {form : Form} (h : form.head? ≠ some "progn") :
    form.statements = if form.isNil then [] else [form] := by
  unfold statements
  split
  · next forms hcall => exact absurd (congrArg (Option.map Prod.fst) hcall) h
  · rfl

/-- Two results that are related, or two faults that are. -/
inductive Outcomes {α β : Type} (faults : Fault → Fault → Prop) (right : α → β → Prop) :
    Except Fault α → Except Fault β → Prop
  | ok {value : α} {copy : β} (h : right value copy) :
      Outcomes faults right (.ok value) (.ok copy)
  | error {fault copy : Fault} (h : faults fault copy) :
      Outcomes faults right (.error fault) (.error copy)

theorem outcomes_eq {α : Type} {outcome copy : Except Fault α} :
    Outcomes Eq Eq outcome copy ↔ outcome = copy := by
  constructor
  · rintro (rfl | rfl) <;> rfl
  · rintro rfl
    cases outcome with
    | ok value => exact .ok rfl
    | error fault => exact .error rfl

/-- A relation that passes from forms to the code made from them, as far as the
code neither waits nor leaves. -/
structure Transfers (related member : Form → Form → Prop) : Prop where
  name : ∀ {name : String}, name ∈ HostCode.names → related (.symbol name) (.symbol name)
  /-- Modes, maps and hooks are named after other things. -/
  ended : ∀ {name ending : String}, related (.symbol name) (.symbol name) →
    ending ∈ ["-mode", "-map", "-hook"] →
      related (.symbol (name ++ ending)) (.symbol (name ++ ending))
  quote : ∀ {form twin : Form}, related form twin → related (.quote form) (.quote twin)
  function : ∀ {name : String}, related (.symbol name) (.symbol name) →
    related (.function (.symbol name)) (.function (.symbol name))
  /-- A quoted symbol is taken for a function by its name. -/
  remark : ∀ {one two : String}, related (.quote (.symbol one)) (.quote (.symbol two)) →
    related (.function (.symbol one)) (.function (.symbol two))
  call : ∀ {head : String} {args copies : List Form}, head ∈ HostCode.heads →
    List.Forall₂ related args copies → related (.call head args) (.call head copies)
  /-- The bindings of a `let` are a list of lists. -/
  calls : ∀ {items copies : List Form},
    List.Forall₂ (fun item copy => related item copy ∧
      ∃ head ∈ HostCode.heads, ∃ args others, item = .call head args ∧ copy = .call head others)
        items copies → related (.list items) (.list copies)
  alike : ∀ {form twin : Form}, related form twin → form.Alike member twin
  block : ∀ {forms twins : List Form}, related (.call "progn" forms) (.call "progn" twins) →
    List.Forall₂ related forms twins
  among : ∀ {form twin : Form}, related form twin → member form twin
  /-- What is not related itself is a quoted form. -/
  apart : ∀ {form twin : Form}, member form twin → related form twin ∨
    ∃ inner copy, form = .quote inner ∧ twin = .quote copy

/-- A relation that also passes to code for later. -/
structure TransfersLater (related member : Form → Form → Prop) : Prop where
  postponed : ∀ {head : String} {args copies : List Form}, head ∈ HostCode.postponing →
    List.Forall₂ related args copies → related (.call head args) (.call head copies)
  awaited : ∀ {feature twin : Form} {body copies : List Form}, member feature twin →
    List.Forall₂ related body copies →
      related (HostCode.afterLoad (HostCode.quoted feature) body)
        (HostCode.afterLoad (HostCode.quoted twin) copies)

namespace Transfers

variable {related member : Form → Form → Prop}

/-- Equality passes to everything. -/
theorem eq : Transfers Eq Eq where
  name _ := rfl
  ended _ _ := rfl
  quote h := congrArg Form.quote h
  function _ := rfl
  remark h := by
    cases h
    rfl
  call _ h := by
    rw [List.forall₂_eq_eq_eq] at h
    rw [h]
  calls h := by
    have hitems := h.imp fun _ _ hboth => hboth.1
    rw [List.forall₂_eq_eq_eq] at hitems
    rw [hitems]
  alike h := by
    subst h
    exact .refl fun _ _ _ _ => rfl
  block h := by
    cases h
    exact List.forall₂_same.mpr fun _ _ => rfl
  among := id
  apart := .inl

variable (h : Transfers related member) {form twin key key' value value' map map' command command'
  hook hook' : Form}

include h

/-! ## Looking at related forms -/

theorem eq_symbol {name : String} (hform : related (.symbol name) twin) :
    twin = .symbol name := by
  cases h.alike hform
  rfl

theorem symbol_eq {name : String} (hform : related form (.symbol name)) :
    form = .symbol name := by
  cases h.alike hform
  rfl

theorem member_symbol {name : String} (hmember : member (.symbol name) twin) :
    twin = .symbol name ∧ related (.symbol name) (.symbol name) := by
  rcases h.apart hmember with hrelated | ⟨inner, copy, hquote, -⟩
  · obtain rfl := h.eq_symbol hrelated
    exact ⟨rfl, hrelated⟩
  · cases hquote

theorem symbol_member {name : String} (hmember : member form (.symbol name)) :
    form = .symbol name := by
  rcases h.apart hmember with hrelated | ⟨inner, copy, -, hquote⟩
  · exact h.symbol_eq hrelated
  · cases hquote

theorem eq_pair {name key : String} (hform : related (.list [.symbol name, .symbol key]) twin) :
    twin = .list [.symbol name, .symbol key] ∧ related (.symbol key) (.symbol key) := by
  cases h.alike hform with
  | list heach =>
      obtain _ | ⟨hname, _ | ⟨hkey, _ | _⟩⟩ := heach
      obtain ⟨rfl, -⟩ := h.member_symbol hname
      obtain ⟨rfl, hrelated⟩ := h.member_symbol hkey
      exact ⟨rfl, hrelated⟩

theorem pair_eq {name key : String} (hform : related form (.list [.symbol name, .symbol key])) :
    form = .list [.symbol name, .symbol key] := by
  cases h.alike hform with
  | list heach =>
      obtain _ | ⟨hname, _ | ⟨hkey, _ | _⟩⟩ := heach
      obtain rfl := h.symbol_member hname
      obtain rfl := h.symbol_member hkey
      rfl

theorem elements (hform : related form twin) :
    List.Forall₂ member form.elements twin.elements := by
  have halone : List.Forall₂ member [form] [twin] := .cons (h.among hform) .nil
  cases h.alike hform with
  | list heach => exact heach
  | _ => exact halone

theorem head?_eq (hform : related form twin) : twin.head? = form.head? := by
  cases h.alike hform with
  | list heach =>
      cases heach with
      | nil => rfl
      | @cons first second rest copies hfirst hrest =>
          cases first with
          | symbol name =>
              obtain ⟨rfl, -⟩ := h.member_symbol hfirst
              rfl
          | _ =>
              cases second with
              | symbol name => cases h.symbol_member hfirst
              | _ => rfl
  | _ => rfl

theorem isNil_eq (hform : related form twin) : twin.isNil = form.isNil := by
  cases h.alike hform <;> rfl

theorem statements (hform : related form twin) :
    List.Forall₂ related form.statements twin.statements := by
  by_cases hhead : form.head? = some "progn"
  · obtain ⟨forms, rfl⟩ := Form.exists_call_of_head? hhead
    obtain ⟨twins, rfl⟩ := Form.exists_call_of_head? ((h.head?_eq hform).trans hhead)
    exact h.block hform
  · rw [Form.statements_of_head hhead, Form.statements_of_head (h.head?_eq hform ▸ hhead),
      h.isNil_eq hform]
    split
    · exact .nil
    · exact .cons hform .nil

/-! ## Host code -/

theorem nil : related Form.nil Form.nil := h.name (by decide)

theorem t : related Form.t Form.t := h.name (by decide)

theorem withEnding {name ending : String} (hname : related (.symbol name) (.symbol name))
    (hending : ending ∈ ["-mode", "-map", "-hook"]) :
    related (.symbol (Text.withEnding name ending)) (.symbol (Text.withEnding name ending)) := by
  unfold Text.withEnding
  split
  · exact hname
  · exact h.ended hname hending

theorem sequence {forms twins : List Form} (hforms : List.Forall₂ related forms twins) :
    related (Form.sequence forms) (Form.sequence twins) := by
  cases hforms with
  | nil => exact h.nil
  | cons hfirst hrest =>
      cases hrest with
      | nil => exact hfirst
      | cons hsecond hrest => exact h.call (by decide) (.cons hfirst (.cons hsecond hrest))

theorem quoted (hform : related form twin) :
    related (HostCode.quoted form) (HostCode.quoted twin) := by
  cases h.alike hform with
  | name | quote => exact hform
  | _ => exact h.quote hform

theorem keyCode (hform : related form twin) :
    related (HostCode.keyCode form) (HostCode.keyCode twin) := by
  cases h.alike hform with
  | text content => exact h.call (by decide) (.cons hform .nil)
  | _ => exact hform

/-- A quoted symbol gets the function mark in place of the quote. -/
theorem functionOf (hform : related form twin) :
    related (HostCode.functionOf form) (HostCode.functionOf twin) := by
  have hother : ∀ {inner : Form}, inner.symbol? = none →
      HostCode.functionOf (.quote inner) = .quote inner := by
    intro inner hinner
    cases inner with
    | symbol name => cases hinner
    | _ => rfl
  cases h.alike hform with
  | symbol name =>
      simp only [HostCode.functionOf]
      split
      · exact hform
      · exact h.function hform
  | name one two => exact h.remark hform
  | quote hunnamed hunnamed' =>
      rw [hother hunnamed, hother hunnamed']
      exact hform
  | _ => exact hform

theorem hookOf {faults : Fault → Fault → Prop} (rule : String)
    (hfault : related form twin →
      faults (Fault.expectedSymbol rule form) (Fault.expectedSymbol rule twin))
    (hform : related form twin) :
    Outcomes faults related (HostCode.hookOf rule form) (HostCode.hookOf rule twin) := by
  have hrefused := hfault hform
  cases h.alike hform with
  | symbol name =>
      simp only [HostCode.hookOf]
      split
      · exact .ok hform
      · exact .ok (h.withEnding hform (by decide))
  | _ => exact .error hrefused

theorem thunk (hlate : TransfersLater related member) (hform : related form twin) :
    related (HostCode.thunk form) (HostCode.thunk twin) :=
  hlate.postponed (by decide) (.cons (h.calls .nil) (.cons hform .nil))

theorem afterLoad (hlate : TransfersLater related member) {feature feature' : Form}
    {body copies : List Form} (hfeature : related feature feature')
    (hbody : List.Forall₂ related body copies) :
    related (HostCode.afterLoad (.quote feature) body)
      (HostCode.afterLoad (.quote feature') copies) :=
  hlate.postponed (by decide) (.cons (h.quote hfeature) hbody)

theorem defineKey (hmap : related map map') (hkey : related key key')
    (hcommand : related command command') :
    related (HostCode.defineKey map key command) (HostCode.defineKey map' key' command') :=
  h.call (by decide) (by simp [hmap, hkey, hcommand])

theorem rebind (hmap : related map map') (hkey : related key key')
    (hcommand : related command command') :
    related (HostCode.rebind map key command) (HostCode.rebind map' key' command') := by
  have hname : related (.symbol "key") (.symbol "key") := h.name (by decide)
  have hkeys : related (.call "where-is-internal" [command, map])
      (.call "where-is-internal" [command', map']) :=
    h.call (by decide) (by simp [hcommand, hmap])
  have heach : related (.call "key" [.call "where-is-internal" [command, map]])
      (.call "key" [.call "where-is-internal" [command', map']]) :=
    h.call (by decide) (.cons hkeys .nil)
  have hloop := h.call (show "dolist" ∈ HostCode.heads by decide)
    (.cons heach (.cons (h.defineKey hmap hname h.nil) .nil))
  exact h.sequence (.cons hloop (.cons (h.defineKey hmap hkey hcommand) .nil))

theorem addHook (hhook : related hook hook') (hcommand : related command command') :
    related (HostCode.addHook hook command) (HostCode.addHook hook' command') :=
  h.call (by decide) (.cons (h.quoted hhook) (.cons hcommand .nil))

theorem installPackage (hform : related form twin) :
    related (HostCode.installPackage form) (HostCode.installPackage twin) := by
  have harchives : related (.symbol "package-archive-contents")
      (.symbol "package-archive-contents") := h.name (by decide)
  have hknown := h.call (show "assq" ∈ HostCode.heads by decide)
    (.cons hform (.cons harchives .nil))
  have hrefresh := h.call (show "package-refresh-contents" ∈ HostCode.heads by decide) .nil
  have hasked := h.call (show "unless" ∈ HostCode.heads by decide)
    (.cons hknown (.cons hrefresh .nil))
  have hinstalled := h.call (show "package-installed-p" ∈ HostCode.heads by decide)
    (.cons hform .nil)
  have hinstall := h.call (show "package-install" ∈ HostCode.heads by decide) (.cons hform .nil)
  exact h.call (by decide) (.cons hinstalled (.cons hasked (.cons hinstall .nil)))

theorem customFunction {property fallback : String} (hform : related form twin)
    (hproperty : property ∈ HostCode.names) (hfallback : fallback ∈ HostCode.names) :
    related (HostCode.customFunction form property fallback)
      (HostCode.customFunction twin property fallback) := by
  have hget := h.call (show "get" ∈ HostCode.heads by decide)
    (.cons (h.quoted hform) (.cons (h.quote (h.name hproperty)) .nil))
  exact h.call (by decide) (.cons hget (.cons (h.function (h.name hfallback)) .nil))

/-! ## Assignments -/

theorem target {faults : Fault → Fault → Prop}
    (hfault : related form twin → faults (.unknownTarget form) (.unknownTarget twin))
    (hform : related form twin) :
    Outcomes faults
      (fun target other => other = target ∧ related (.symbol target.key) (.symbol target.key))
      (Target.ofForm form) (Target.ofForm twin) := by
  have hrefused := hfault hform
  unfold Target.ofForm
  split
  · obtain rfl := h.eq_symbol hform
    exact .ok ⟨rfl, hform⟩
  · next name key =>
      obtain ⟨rfl, hkey⟩ := h.eq_pair hform
      dsimp only
      cases Edit.ofName? name with
      | some edit => exact .ok ⟨rfl, hkey⟩
      | none => exact .error hrefused
  · next hsymbol hpair =>
      split
      · exact absurd (h.symbol_eq hform) (hsymbol _)
      · exact absurd (h.pair_eq hform) (hpair _ _)
      · exact .error hrefused

theorem unlessMember {place : Place} {changed : Form}
    (hread : related (place.read key) (place.read key')) (hvalue : related value value')
    (hchanged : related changed changed) :
    related (place.unlessMember key value changed) (place.unlessMember key' value' changed) := by
  have hnew : related Place.valueName Place.valueName := h.name (by decide)
  have hold : related Place.oldName Place.oldName := h.name (by decide)
  have hfirst := h.call (show "setup--value" ∈ HostCode.heads by decide) (.cons hvalue .nil)
  have hsecond := h.call (show "setup--old" ∈ HostCode.heads by decide) (.cons hread .nil)
  have hbindings := h.calls (.cons ⟨hfirst, _, by decide, _, _, rfl, rfl⟩
    (.cons ⟨hsecond, _, by decide, _, _, rfl, rfl⟩ .nil))
  have hmember := h.call (show "member" ∈ HostCode.heads by decide) (.cons hnew (.cons hold .nil))
  have hchoice := h.call (show "if" ∈ HostCode.heads by decide)
    (.cons hmember (.cons hold (.cons hchanged .nil)))
  exact h.call (by decide) (.cons hbindings (.cons hchoice .nil))

theorem edited {place : Place} (edit : Edit)
    (hread : related (place.read key) (place.read key')) (hvalue : related value value') :
    related (place.edited edit key value) (place.edited edit key' value') := by
  have hnew : related Place.valueName Place.valueName := h.name (by decide)
  have hold : related Place.oldName Place.oldName := h.name (by decide)
  cases edit with
  | set => exact hvalue
  | append =>
      have hlist := h.call (show "list" ∈ HostCode.heads by decide) (.cons hnew .nil)
      exact h.unlessMember hread hvalue (h.call (by decide) (.cons hold (.cons hlist .nil)))
  | prepend =>
      exact h.unlessMember hread hvalue (h.call (by decide) (.cons hnew (.cons hold .nil)))
  | remove => exact h.call (by decide) (.cons hvalue (.cons hread .nil))

/-- Assignments to a kind of variable that is read and written by related code. -/
theorem assign {place : Place} {faults : Fault → Fault → Prop}
    (hread : ∀ {key key' : Form}, related key key' →
      related (place.read key) (place.read key'))
    (hwrite : ∀ {key key' value value' : Form}, related key key' → related value value' →
      related (place.write key value) (place.write key' value'))
    (hfault : related form twin → faults (.unknownTarget form) (.unknownTarget twin))
    (hform : related form twin) (hvalue : related value value') :
    Outcomes faults related (place.assign form value) (place.assign twin value') := by
  have htargets := h.target hfault hform
  unfold Place.assign
  revert htargets
  generalize Target.ofForm form = one, Target.ofForm twin = two
  rintro (⟨⟨rfl, hkey⟩⟩ | hrefused)
  · exact .ok (hwrite hkey (h.edited _ (hread hkey) hvalue))
  · exact .error hrefused

theorem assign_optionPlace {faults : Fault → Fault → Prop}
    (hfault : related form twin → faults (.unknownTarget form) (.unknownTarget twin))
    (hform : related form twin) (hvalue : related value value') :
    Outcomes faults related (Builtin.optionPlace.assign form value)
      (Builtin.optionPlace.assign twin value') := by
  refine h.assign (fun hkey => ?_) (fun hkey hvalue => ?_) hfault hform hvalue
  · have hgetter := h.customFunction hkey (show "custom-get" ∈ HostCode.names by decide)
      (show "symbol-value" ∈ HostCode.names by decide)
    exact h.call (by decide) (.cons hgetter (.cons (h.quoted hkey) .nil))
  · have hload := h.call (show "custom-load-symbol" ∈ HostCode.heads by decide)
      (.cons (h.quoted hkey) .nil)
    have hsetter := h.customFunction hkey (show "custom-set" ∈ HostCode.names by decide)
      (show "set-default" ∈ HostCode.names by decide)
    have hset := h.call (show "funcall" ∈ HostCode.heads by decide)
      (.cons hsetter (.cons (h.quoted hkey) (.cons hvalue .nil)))
    exact h.sequence (.cons hload (.cons hset .nil))

theorem assign_localPlace {faults : Fault → Fault → Prop}
    (hfault : related form twin → faults (.unknownTarget form) (.unknownTarget twin))
    (hform : related form twin) (hvalue : related value value') :
    Outcomes faults related (Builtin.localPlace.assign form value)
      (Builtin.localPlace.assign twin value') :=
  h.assign id (fun hkey hvalue => h.call (by decide) (.cons hkey (.cons hvalue .nil))) hfault
    hform hvalue

end Transfers

/-- Each feature is waited for, also one that is a tag. -/
theorem TransfersLater.afterAll {related member : Form → Form → Prop}
    (hlate : TransfersLater related member) {features copies body twins : List Form}
    (hfeatures : List.Forall₂ member features copies)
    (hbody : List.Forall₂ related body twins) :
    List.Forall₂ related (HostCode.afterAll features body) (HostCode.afterAll copies twins) := by
  induction hfeatures with
  | nil => exact hbody
  | cons hfeature _ ih => exact .cons (hlate.awaited hfeature ih) .nil

/-- Equality passes to code for later, too. -/
theorem TransfersLater.eq : TransfersLater Eq Eq where
  postponed _ h := by
    rw [List.forall₂_eq_eq_eq] at h
    rw [h]
  awaited hfeature hbody := by
    rw [List.forall₂_eq_eq_eq] at hbody
    rw [hfeature, hbody]

/-- Something beside itself, with a property. In this way a property is a relation, and
what is said of relations holds of properties. -/
def Sharing {α : Type} (P : α → Prop) (value copy : α) : Prop := value = copy ∧ P value

theorem forall₂_sharing {α : Type} {P : α → Prop} {values copies : List α} :
    List.Forall₂ (Sharing P) values copies ↔ values = copies ∧ ∀ value ∈ values, P value := by
  constructor
  · intro h
    induction h with
    | nil => exact ⟨rfl, by simp⟩
    | cons hfirst _ ih =>
        obtain ⟨rfl, hfirst⟩ := hfirst
        obtain ⟨rfl, hrest⟩ := ih
        exact ⟨rfl, List.forall_mem_cons.mpr ⟨hfirst, hrest⟩⟩
  · rintro ⟨rfl, h⟩
    exact List.forall₂_same.mpr fun value hvalue => ⟨rfl, h value hvalue⟩

end Rulebook
