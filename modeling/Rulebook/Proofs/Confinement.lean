import Rulebook.Form.Induction
import Rulebook.Form.Shape
import Rulebook.Proofs.Composition
import Rulebook.Setup

/-!
# Where a token may stand

An early exit throws to the token of its setup, so the token is part of the
code. It must not stand just anywhere: a second catch of it would swallow the
exit. What is kept up throughout a run is that it stands nowhere but as the
quoted tag of a throw.

One more place has to be allowed for. The rule that waits for several features
takes any list for the list of its features, and a throw is a list. So the tag
of a throw may end up as the feature that some code waits for. From there it
goes nowhere else: a scope takes only symbols for its targets, and every other
rule takes a list as it is.

The names that rules make up themselves are no tokens. Those that are written
out do not start as a token does, and those made from other names do not end in
a digit.
-/

namespace Rulebook

namespace Setup

/-- The name of the token with a number. -/
def tokenName (number : UInt64) : String := "setup-quit-" ++ toString number

theorem toList_tokenName (number : UInt64) :
    (tokenName number).toList = "setup-quit-".toList ++ Nat.toDigits 10 number.toNat := by
  rw [tokenName, String.toList_append]
  exact congrArg _ (Nat.toList_repr ..)

theorem ne_tokenName {name : String} (h : ¬ "setup-quit-".toList <+: name.toList)
    (number : UInt64) : name ≠ tokenName number := by
  rintro rfl
  rw [tokenName, String.toList_append] at h
  exact h (List.prefix_append _ _)

theorem append_ne_tokenName {ending : String} {last : Char}
    (hlast : ending.toList.getLast? = some last) (hdigit : last.isDigit = false) (name : String)
    (number : UInt64) : name ++ ending ≠ tokenName number := by
  intro heq
  have hchars := congrArg (fun text => text.toList.getLast?) heq
  rw [String.toList_append, toList_tokenName, List.getLast?_append, List.getLast?_append, hlast]
    at hchars
  have hmem : last ∈ Nat.toDigits 10 number.toNat := by
    rw [List.getLast?_eq_some_getLast Nat.toDigits_ne_nil] at hchars
    obtain rfl : last = (Nat.toDigits 10 number.toNat).getLast Nat.toDigits_ne_nil := by
      simpa using hchars
    exact List.getLast_mem _
  rw [Nat.isDigit_of_mem_toDigits (by decide) (by decide) hmem] at hdigit
  cases hdigit

theorem ended_ne_tokenName {ending : String} (hending : ending ∈ ["-mode", "-map", "-hook"])
    (name : String) (number : UInt64) : name ++ ending ≠ tokenName number := by
  simp only [List.mem_cons, List.not_mem_nil, or_false] at hending
  rcases hending with rfl | rfl | rfl <;> exact append_ne_tokenName rfl rfl name number

/-- No name that rules or setups write out starts as a token does. -/
theorem not_prefix_of_mem_names :
    ∀ name ∈ HostCode.names, ¬ "setup-quit-".toList <+: name.toList := by
  decide

theorem not_prefix_of_mem_heads {head : String} (h : head ∈ HostCode.heads) :
    ¬ "setup-quit-".toList <+: head.toList :=
  not_prefix_of_mem_names head (List.mem_of_mem_filter h)

theorem not_prefix_of_mem_postponing :
    ∀ head ∈ HostCode.postponing, ¬ "setup-quit-".toList <+: head.toList := by
  decide

end Setup

namespace Form

open Setup

/-- The heads of the lists that may have a token for their tag. -/
def TakesTag (head : String) : Prop := head = "throw" ∨ head = "with-eval-after-load"

instance (head : String) : Decidable (TakesTag head) := inferInstanceAs (Decidable (_ ∨ _))

/-- The token with this number stands nowhere in the form but as a tag. -/
inductive Confined (number : UInt64) : Form → Prop
  | symbol {name : String} (other : name ≠ tokenName number) : Confined number (.symbol name)
  | text (content : String) : Confined number (.text content)
  | int (value : Int64) : Confined number (.int value)
  | quote {inner : Form} (within : Confined number inner) : Confined number (.quote inner)
  | function {inner : Form} (within : Confined number inner) : Confined number (.function inner)
  | list {items : List Form} (each : ∀ item ∈ items, Confined number item) :
      Confined number (.list items)
  | vector {items : List Form} (each : ∀ item ∈ items, Confined number item) :
      Confined number (.vector items)
  | tagged {head : String} {rest : List Form} (takes : TakesTag head)
      (each : ∀ item ∈ rest, Confined number item) :
      Confined number (.list (.symbol head :: .quote (token number) :: rest))

variable {number : UInt64} {form : Form}

theorem Confined.call {head : String} (hhead : ¬ "setup-quit-".toList <+: head.toList)
    {args : List Form} (h : ∀ arg ∈ args, arg.Confined number) :
    (Form.call head args).Confined number := by
  refine .list fun item hi => ?_
  rcases List.mem_cons.mp hi with rfl | hi
  · exact .symbol (ne_tokenName hhead number)
  · exact h item hi

/-- The arguments of a call that takes no tag. -/
theorem Confined.args {head : String} {args : List Form}
    (h : (Form.list (.symbol head :: args)).Confined number) (hhead : ¬ TakesTag head) :
    ∀ arg ∈ args, arg.Confined number := by
  cases h with
  | list heach => exact fun arg ha => heach arg (by simp [ha])
  | tagged htakes _ => exact absurd htakes hhead

/-- What may stand among the items of a list: a form, or a tag. -/
def Listed (number : UInt64) (item : Form) : Prop :=
  item.Confined number ∨ item = .quote (token number)

theorem Confined.items {items : List Form} (h : (Form.list items).Confined number) :
    ∀ item ∈ items, item.Listed number := by
  cases h with
  | list heach => exact fun item hitem => .inl (heach item hitem)
  | @tagged head rest htakes heach =>
      have hhead : (Form.symbol head).Confined number := by
        refine .symbol (ne_tokenName ?_ number)
        rcases htakes with rfl | rfl <;> decide
      exact List.forall_mem_cons.mpr ⟨.inl hhead, List.forall_mem_cons.mpr
        ⟨.inr rfl, fun item hitem => .inl (heach item hitem)⟩⟩

/-- Code made from confined forms is confined. -/
theorem transfers_confined (number : UInt64) :
    Transfers (Sharing (Confined number)) (Sharing (Listed number)) where
  name hname := ⟨rfl, .symbol (ne_tokenName (not_prefix_of_mem_names _ hname) number)⟩
  ended _ hending := ⟨rfl, .symbol (ended_ne_tokenName hending _ number)⟩
  quote h := ⟨congrArg Form.quote h.1, .quote h.2⟩
  function h := ⟨rfl, .function h.2⟩
  remark := by
    rintro one two ⟨heq, hquote⟩
    cases heq
    cases hquote with
    | quote hname => exact ⟨rfl, .function hname⟩
  call hhead hargs := by
    obtain ⟨rfl, heach⟩ := forall₂_sharing.mp hargs
    exact ⟨rfl, .call (not_prefix_of_mem_heads hhead) heach⟩
  calls hitems := by
    obtain ⟨rfl, heach⟩ := forall₂_sharing.mp (hitems.imp fun _ _ h => h.1)
    exact ⟨rfl, .list heach⟩
  alike := by
    rintro form _ ⟨rfl, hform⟩
    refine .refl fun items heq item hitem => ?_
    subst heq
    exact ⟨rfl, hform.items item hitem⟩
  block := by
    rintro forms twins ⟨heq, hblock⟩
    cases heq
    exact forall₂_sharing.mpr ⟨rfl, hblock.args (by decide)⟩
  among h := ⟨h.1, .inl h.2⟩
  apart := by
    rintro form _ ⟨rfl, hform | rfl⟩
    · exact .inl ⟨rfl, hform⟩
    · exact .inr ⟨_, _, rfl, rfl⟩

theorem Confined.statements (h : form.Confined number) :
    ∀ statement ∈ form.statements, statement.Confined number :=
  (forall₂_sharing.mp ((transfers_confined number).statements ⟨rfl, h⟩)).2

/-! ## Catches -/

mutual

/-- The items of every list in a form, quoted ones included. -/
def lists : Form → List (List Form)
  | .quote inner => inner.lists
  | .function inner => inner.lists
  | .list items => items :: listsOf items
  | .vector items => listsOf items
  | _ => []

/-- The items of every list in several forms. -/
def listsOf : List Form → List (List Form)
  | [] => []
  | form :: forms => form.lists ++ listsOf forms

end

end Form

end Rulebook
