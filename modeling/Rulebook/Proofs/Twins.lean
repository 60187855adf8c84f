import Rulebook.Form.Substitution
import Rulebook.Proofs.Confinement
import Rulebook.Proofs.Scenes

/-!
# Code that differs in its token

Two forms are twins if the one has the token of one number wherever the other
has the token of another, and they are equal otherwise. That much is a renaming.
What has to be known besides is that no rule finds the difference, and for this
it matters where a token may stand: in quotes or under a function mark, and
never bare. A bare symbol may become the target of a scope or the name of a
hook, and then the names that are made from it would differ as well, with the
two tokens hidden inside them.

Tokens come into the code in quotes. Rules add quotes and function marks, and
turn a quoted symbol into a marked one, but none of them lays a symbol bare. So
code made in the same way from twins is twins again.
-/

namespace Rulebook

namespace Form

open Setup

/-- The form with the symbols of one name replaced by those of another. -/
def rename (old new : String) (form : Form) : Form :=
  form.substitute fun name => .symbol (if name = old then new else name)

/-- The second form is the first one with the token `other` in place of the
token `number`, which is nowhere bare. -/
inductive Twins (number other : UInt64) : Form → Form → Prop
  | symbol {name : String} (apart : name ≠ tokenName number) :
      Twins number other (.symbol name) (.symbol name)
  | text (content : String) : Twins number other (.text content) (.text content)
  | int (value : Int64) : Twins number other (.int value) (.int value)
  | tag : Twins number other (.quote (token number)) (.quote (token other))
  | mark : Twins number other (.function (token number)) (.function (token other))
  | quote {inner twin : Form} (within : Twins number other inner twin) :
      Twins number other (.quote inner) (.quote twin)
  | function {inner twin : Form} (within : Twins number other inner twin) :
      Twins number other (.function inner) (.function twin)
  | list {items twins : List Form} (each : List.Forall₂ (Twins number other) items twins) :
      Twins number other (.list items) (.list twins)
  | vector {items twins : List Form} (each : List.Forall₂ (Twins number other) items twins) :
      Twins number other (.vector items) (.vector twins)

variable {number other : UInt64} {form twin : Form} {forms twins : List Form}

/-- A form without the token is its own twin. -/
theorem twins_of_not_mem (h : tokenName number ∉ form.symbols) :
    form.Twins number other form := by
  induction form using Form.induct with
  | symbol name => exact .symbol fun heq => h (by simp [symbols, heq])
  | text content => exact .text content
  | int value => exact .int value
  | quote inner ih => exact .quote (ih h)
  | function inner ih => exact .function (ih h)
  | list items ih =>
      refine .list (List.forall₂_same.mpr fun item hi => ih item hi fun hmem => ?_)
      exact h (mem_symbolsOf.mpr ⟨item, hi, hmem⟩)
  | vector items ih =>
      refine .vector (List.forall₂_same.mpr fun item hi => ih item hi fun hmem => ?_)
      exact h (mem_symbolsOf.mpr ⟨item, hi, hmem⟩)

theorem substituteAll_of_forall₂ {relates : Form → Form → Prop} {image : String → Form}
    (h : List.Forall₂ relates forms twins)
    (himage : ∀ form ∈ forms, ∀ {twin}, relates form twin → twin = form.substitute image) :
    twins = substituteAll image forms := by
  induction h with
  | nil => rfl
  | cons hfirst _ ih =>
      rw [substituteAll, himage _ (by simp) hfirst, ih fun form hf => himage form (by simp [hf])]

/-- Twins are told apart by the token alone. -/
theorem Twins.eq_rename (h : form.Twins number other twin) :
    twin = form.rename (tokenName number) (tokenName other) := by
  have htoken : token other = (token number).rename (tokenName number) (tokenName other) := by
    show _ = Form.symbol (if tokenName number = tokenName number then _ else _)
    rw [if_pos rfl]
    rfl
  unfold rename at htoken ⊢
  induction form using Form.induct generalizing twin with
  | symbol name =>
      cases h with
      | symbol hname => rw [substitute, if_neg hname]
  | text content => cases h with | text => rfl
  | int value => cases h with | int => rfl
  | quote inner ih =>
      cases h with
      | tag => rw [substitute, ← htoken]
      | quote hinner => rw [substitute, ← ih hinner]
  | function inner ih =>
      cases h with
      | mark => rw [substitute, ← htoken]
      | function hinner => rw [substitute, ← ih hinner]
  | list items ih =>
      cases h with
      | list heach => rw [substitute, ← substituteAll_of_forall₂ heach ih]
  | vector items ih =>
      cases h with
      | vector heach => rw [substitute, ← substituteAll_of_forall₂ heach ih]

theorem Twins.call {head : String} (hhead : ¬ "setup-quit-".toList <+: head.toList)
    (h : List.Forall₂ (Twins number other) forms twins) :
    (Form.call head forms).Twins number other (Form.call head twins) :=
  .list (.cons (.symbol (ne_tokenName hhead number)) h)

theorem twins_list : (Form.list forms).Twins number other (Form.list twins) ↔
    List.Forall₂ (Twins number other) forms twins := by
  refine ⟨fun h => ?_, .list⟩
  cases h with
  | list heach => exact heach

/-! ## Code made from twins -/

/-- A rule that looks at twins takes them for the same. Of a quoted form it sees only
whether it is a symbol, so it does not see the token. -/
theorem Twins.alike (h : form.Twins number other twin) :
    form.Alike (Twins number other) twin := by
  cases h with
  | symbol _ => exact .symbol _
  | text content => exact .text content
  | int value => exact .int value
  | tag => exact .name _ _
  | mark => exact .function _ _
  | quote hinner =>
      cases hinner with
      | symbol _ => exact .name _ _
      | _ => exact .quote rfl rfl
  | function _ => exact .function _ _
  | list heach => exact .list heach
  | vector _ => exact .vector _ _

/-- Code made from twins is twins. A token in quotes may get under a function mark. -/
theorem transfers_twins (number other : UInt64) :
    Transfers (Twins number other) (Twins number other) where
  name hname := .symbol (ne_tokenName (not_prefix_of_mem_names _ hname) number)
  ended _ hending := .symbol (ended_ne_tokenName hending _ number)
  quote := .quote
  function := .function
  remark := by
    rintro one two (_ | _ | _ | _ | _ | hname)
    · exact .mark
    · exact .function hname
  call hhead := .call (not_prefix_of_mem_heads hhead)
  calls hitems := .list (hitems.imp fun _ _ hboth => hboth.1)
  alike := Twins.alike
  block h := by
    cases twins_list.mp h with
    | cons _ hrest => exact hrest
  among := id
  apart := .inl

theorem transfersLater_twins (number other : UInt64) :
    TransfersLater (Twins number other) (Twins number other) where
  postponed hhead := .call (not_prefix_of_mem_postponing _ hhead)
  awaited hfeature hbody :=
    .call (by decide) (.cons ((transfers_twins number other).quoted hfeature) hbody)

theorem marks_twins (number other : UInt64) : Relating.Marks (Twins number other) where
  function := .function
  inner h := by
    cases h with
    | mark => exact .inr ⟨_, _, rfl, rfl⟩
    | function hinner => exact .inl hinner

theorem twins_throwTo (h : form.Twins number other twin) :
    (HostCode.throwTo (token number) form).Twins number other
      (HostCode.throwTo (token other) twin) :=
  .call (by decide) (.cons .tag (.cons h .nil))

theorem twins_catchFor (h : List.Forall₂ (Twins number other) forms twins) :
    (HostCode.catchFor (token number) forms).Twins number other
      (HostCode.catchFor (token other) twins) :=
  .call (by decide) (.cons .tag h)

end Form

/-- Faults that say the same of twins. -/
inductive Fault.Twins (number other : UInt64) : Fault → Fault → Prop
  | same (fault : Fault) : Twins number other fault fault
  | unknownTarget {form twin : Form} (h : form.Twins number other twin) :
      Twins number other (.unknownTarget form) (.unknownTarget twin)
  | expectedSymbol (rule : String) {form twin : Form} (h : form.Twins number other twin) :
      Twins number other (.expectedSymbol rule form) (.expectedSymbol rule twin)

/-- Faults that are twins are of one kind. -/
theorem Fault.Twins.ctorIdx_eq {number other : UInt64} {fault twin : Fault}
    (h : fault.Twins number other twin) : twin.ctorIdx = fault.ctorIdx := by
  cases h <;> rfl

end Rulebook
