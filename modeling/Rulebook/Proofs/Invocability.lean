import Rulebook.Proofs.Grammar
import Rulebook.Proofs.Registration

/-!
# Every rule can be called from a text

A rule is found by the head symbol of a list. That is of use only if a text can
put its name there, and which names a rule may have is decided in one place and
which names are read as symbols in another. The first are the fewer: all their
characters are characters of atoms, and a name that is an integer literal for
the reader is a numeral for the registry, which knows more digits than the
reader does.

So no rule can be entered under a name that the reader would cut apart or take
for a number. A call that is written with the name reads back as that call, and
what is read is looked up under the very same name.
-/

namespace Rulebook

namespace Rule

theorem isAtomChar_of_isNameChar {c : Char} (h : isNameChar c = true) :
    Form.isAtomChar c = true := by
  simp only [isNameChar, Bool.not_eq_true', Bool.or_eq_false_iff, decide_eq_false_iff_not,
    List.mem_cons, not_or] at h
  obtain ⟨hblank, hopen, hclose, hleft, hright, htext, hquote, hcomment, -⟩ := h
  exact Form.isAtomChar_iff.mpr ⟨hblank, hopen, hclose, hleft, hright, hquote, htext, hcomment⟩

theorem isDecimalDigit_of_isDigit {c : Char} (h : c.isDigit = true) :
    Text.isDecimalDigit c = true := by
  simp only [Char.isDigit, Bool.and_eq_true, decide_eq_true_eq] at h
  have hrange : 0x30 ≤ c.toNat ∧ c.toNat ≤ 0x39 := h
  rw [Text.isDecimalDigit, Text.CodeRanges.contains, Text.decimalDigitRanges, List.any_cons,
    Bool.or_eq_true]
  exact .inl (by simpa using hrange)

/-- What the reader takes for an integer is a numeral, whatever its value. A
number with no sign starts with a digit, so no sign is taken off it. -/
theorem isNumeral_of_denotes {chars : List Char} {number : Int} (h : Form.Denotes chars number) :
    isNumeral chars = true := by
  have hdigits : ∀ {digits : List Char}, digits ≠ [] → (∀ c ∈ digits, c.isDigit = true) →
      (!digits.isEmpty && digits.all Text.isDecimalDigit) = true := by
    intro digits hany heach
    have hall := List.all_eq_true.mpr fun c hc => isDecimalDigit_of_isDigit (heach c hc)
    simpa [hany] using hall
  cases h with
  | plus hany heach => exact hdigits hany heach
  | minus hany heach => exact hdigits hany heach
  | unsigned hany heach =>
      unfold isNumeral
      split
      · next rest => exact absurd (heach '-' (by simp)) (by decide)
      · next rest => exact absurd (heach '+' (by simp)) (by decide)
      · exact hdigits hany heach

theorem isReadable_of_isName {id : String} (h : isName id = true) : Form.isReadable id = true := by
  simp only [isName, Bool.and_eq_true, Bool.not_eq_true', List.isEmpty_eq_false_iff,
    List.all_eq_true] at h
  obtain ⟨⟨hne, hchars⟩, hnumeral⟩ := h
  refine Form.isReadable_iff.mpr ⟨hne, fun c hc => isAtomChar_of_isNameChar (hchars c hc), ?_⟩
  rw [Option.eq_none_iff_forall_ne_some]
  intro value hvalue
  rw [isNumeral_of_denotes (Form.integerLiteral?_eq_some.mp hvalue)] at hnumeral
  cases hnumeral

end Rule

namespace Form

/-- A call is written as its parts between parentheses, with spaces between them. -/
theorem render_call (head : String) (args : List Form) :
    (Form.call head args).render =
      "(" ++ " ".intercalate (head :: args.map render) ++ ")" := by
  have hparts : spacedChars (.symbol head :: args) =
      (" ".intercalate (head :: args.map render)).toList := by
    rw [String.toList_intercalate, spacedChars_eq_intercalate, List.map_cons, List.map_cons,
      List.map_map]
    congr 3
    exact funext fun form => (toList_render form).symm
  rw [← String.toList_inj, toList_render, String.toList_append, String.toList_append, ← hparts]
  rfl

theorem wellFormed_call {head : String} {args : List Form} (hhead : isReadable head = true) :
    (Form.call head args).WellFormed ↔
      ∀ arg ∈ args, arg.Readable ∧ arg.nesting ≤ maxNesting - 1 := by
  have hreadable : (Form.call head args).Readable ↔ ∀ arg ∈ args, arg.Readable := by
    rw [call, readable_list, List.forall_mem_cons]
    exact and_iff_right (by simpa [Readable, symbols] using hhead)
  have hnesting : (Form.call head args).nesting = nestingOf args + 1 := by
    simp [call, nesting, nestingOf]
  show (Form.call head args).Readable ∧ _ ↔ _
  rw [hreadable, hnesting]
  constructor
  · rintro ⟨heach, hdepth⟩ arg harg
    have := nesting_le_nestingOf harg
    exact ⟨heach arg harg, by omega⟩
  · intro h
    have hdepth := nestingOf_le fun arg harg => (h arg harg).2
    refine ⟨fun arg harg => (h arg harg).1, ?_⟩
    rw [maxNesting] at hdepth ⊢
    omega

theorem read_of_isReadable {name : String} (h : isReadable name = true) :
    read name = .ok [.symbol name] := by
  have hone : ∀ form ∈ [Form.symbol name], form.WellFormed := by
    simpa [WellFormed, symbols, nesting] using h
  exact readChars_spacedChars hone

/-- A text reads back as the form that it was written for just when that form is
well formed. -/
theorem read_render_iff {form : Form} : read form.render = .ok [form] ↔ form.WellFormed := by
  rw [read, toList_render]
  constructor
  · intro h
    exact wellFormed_of_readChars h form (by simp)
  · intro h
    exact readChars_spacedChars (List.forall_mem_singleton.mpr h)

end Form

namespace Registry

theorem invocation?_eq_map (registry : Registry) (id : String) (args : List Form) :
    registry.invocation? (.call id args) = (registry.find? id).map fun entry => (entry, args) := by
  cases hfind : registry.find? id <;> simp [invocation?, Form.call, Form.call?, hfind]

/-- A name that a rule may have is read as the symbol of that name. Written at the
head of a list it is read at the head of that list, with the arguments it was
written with, just when the arguments are readable and leave a level of nesting
to the list; and a registry finds the rule of the name there. Every name in a
registry, after whatever changes, is of this kind, so its entry is found. -/
theorem invoked_from_text :
    (∀ id, Rule.isName id = true →
      Form.read id = .ok [.symbol id] ∧
      ∀ args,
        (Form.read ("(" ++ " ".intercalate (id :: args.map Form.render) ++ ")") =
            .ok [.call id args] ↔
          ∀ arg ∈ args, arg.Readable ∧ arg.nesting ≤ Form.maxNesting - 1) ∧
        ∀ registry : Registry, registry.invocation? (.call id args) =
          (registry.find? id).map fun entry => (entry, args)) ∧
    ∀ history id entry, (empty.after history).find? id = some entry →
      Rule.isName id = true ∧
      ∀ args, (∀ arg ∈ args, arg.Readable ∧ arg.nesting ≤ Form.maxNesting - 1) →
        ∃ form,
          Form.read ("(" ++ " ".intercalate (id :: args.map Form.render) ++ ")") = .ok [form] ∧
          (empty.after history).invocation? form = some (entry, args) := by
  have hreads : ∀ {id : String}, Rule.isName id = true → ∀ args : List Form,
      Form.read ("(" ++ " ".intercalate (id :: args.map Form.render) ++ ")") =
          .ok [.call id args] ↔
        ∀ arg ∈ args, arg.Readable ∧ arg.nesting ≤ Form.maxNesting - 1 := by
    intro id hname args
    rw [← Form.render_call, Form.read_render_iff,
      Form.wellFormed_call (Rule.isReadable_of_isName hname)]
  refine ⟨fun id hname => ?_, fun history id entry hfind => ?_⟩
  · refine ⟨Form.read_of_isReadable (Rule.isReadable_of_isName hname), fun args => ?_⟩
    exact ⟨hreads hname args, fun registry => registry.invocation?_eq_map id args⟩
  · obtain ⟨hid, hname, -⟩ := (holds_empty.after history).entry_sound hfind
    rw [hid] at hname
    refine ⟨hname, fun args hargs => ⟨.call id args, (hreads hname args).mpr hargs, ?_⟩⟩
    rw [invocation?_eq_map, hfind]
    rfl

/-- A rule whose name begins like a number. -/
def successor : Rule := { name := "1+", action := .body }

/-- What it is called with: a quoted list, an empty vector and a number. -/
def successorArgs : List Form :=
  [.quote (.list [.symbol "a", .text "b\n"]), .vector [], .int (-3)]

theorem invoked_from_text_of_numberlike :
    Form.read "1+" = .ok [.symbol "1+"] ∧
    Form.read "(1+ '(a \"b\\n\") [] -3)" = .ok [.call "1+" successorArgs] ∧
    ∃ entry, (empty.after [.define successor]).find? "1+" = some entry ∧
      ∃ form, Form.read "(1+ '(a \"b\\n\") [] -3)" = .ok [form] ∧
        (empty.after [.define successor]).invocation? form = some (entry, successorArgs) := by
  have htext : "(" ++ " ".intercalate ("1+" :: successorArgs.map Form.render) ++ ")" =
      "(1+ '(a \"b\\n\") [] -3)" := by
    decide +kernel
  have hargs : ∀ arg ∈ successorArgs, arg.Readable ∧ arg.nesting ≤ Form.maxNesting - 1 := by
    simp only [Form.Readable]
    decide
  obtain ⟨halone, hcalls⟩ := invoked_from_text.1 "1+" (by decide)
  obtain ⟨entry, hfind⟩ : ∃ entry, (empty.after [.define successor]).find? "1+" = some entry :=
    ⟨_, rfl⟩
  have hfound := (invoked_from_text.2 _ "1+" entry hfind).2 successorArgs hargs
  have hread := (hcalls successorArgs).1.mpr hargs
  rw [htext] at hread hfound
  exact ⟨halone, hread, entry, hfind, hfound⟩

end Registry

end Rulebook
