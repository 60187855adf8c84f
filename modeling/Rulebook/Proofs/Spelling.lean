import Rulebook.Form.Induction
import Rulebook.Form.Printer
import Rulebook.Form.Shape

/-!
# The scanner finds the tokens a form was written with

A written form is a sequence of tokens with single spaces here and there, and
the scanner has to cut it back into just those tokens. The only token that does
not end by itself is an atom: it goes on until the scanner sees what cannot
belong to it. So scanning the text of a form leaves the scanner either idle or
in the middle of an atom that whatever follows will end, and `Between` says so
for both cases at once. What may follow is the end of the text, a space or a
closing bracket, and each of the three has its lemma.

The `#` needs care only where an atom begins with it: the scanner waits to see
whether a quote follows, and nothing that may follow a written form is one.
-/

namespace Rulebook.Form

/-! ## The tokens of a form -/

mutual

/-- The tokens that a form is written with. -/
def spelling : Form → List Token
  | .symbol name => [.atom name.toList]
  | .text content => [.text (content.toList.flatMap escapedChar)]
  | .int value => [.atom (Text.integerChars value)]
  | .quote inner => .sigil .quote :: inner.spelling
  | .function inner => .sigil .function :: inner.spelling
  | .list items => .opening .round :: spellingOf items ++ [.closing .round]
  | .vector items => .opening .square :: spellingOf items ++ [.closing .square]

/-- The tokens that several forms are written with. -/
def spellingOf : List Form → List Token
  | [] => []
  | form :: forms => form.spelling ++ spellingOf forms

end

/-- All symbols of a form have names that read back. -/
def Readable (form : Form) : Prop := ∀ name ∈ form.symbols, isReadable name

theorem readable_list {items : List Form} :
    (Form.list items).Readable ↔ ∀ item ∈ items, item.Readable := by
  simp only [Readable, symbols, mem_symbolsOf]
  exact ⟨fun h item hi name hn => h name ⟨item, hi, hn⟩,
    fun h name ⟨item, hi, hn⟩ => h item hi name hn⟩

theorem readable_vector {items : List Form} :
    (Form.vector items).Readable ↔ ∀ item ∈ items, item.Readable := readable_list

/-! ## Characters of atoms -/

theorem isAtomChar_iff {c : Char} :
    isAtomChar c = true ↔
      Text.isBlank c = false ∧ c ≠ '(' ∧ c ≠ ')' ∧ c ≠ '[' ∧ c ≠ ']' ∧ c ≠ '\'' ∧
        c ≠ '"' ∧ c ≠ ';' := by
  simp [isAtomChar]

theorem isAtomChar_of_isDigit {c : Char} (h : c.isDigit = true) : isAtomChar c = true := by
  have hlo : 48 ≤ c.toNat := by
    simp only [Char.isDigit, Bool.and_eq_true, decide_eq_true_eq] at h
    exact h.1
  have hhi : c.toNat ≤ 57 := by
    simp only [Char.isDigit, Bool.and_eq_true, decide_eq_true_eq] at h
    exact h.2
  have hne : ∀ d : Char, d.toNat < 48 ∨ 57 < d.toNat → c ≠ d := by
    rintro d hd rfl
    omega
  rw [isAtomChar_iff]
  refine ⟨?_, ?_, ?_, ?_, ?_, ?_, ?_, ?_⟩
  · simp only [Text.isBlank, Text.CodeRanges.contains, Text.blankRanges, List.any_cons,
      List.any_nil, Bool.or_eq_false_iff, Bool.and_eq_false_iff, decide_eq_false_iff_not,
      and_true]
    omega
  all_goals exact hne _ (by decide)

theorem isAtomChar_of_mem_integerChars {value : Int64} {c : Char}
    (h : c ∈ Text.integerChars value) : isAtomChar c = true := by
  rw [Text.integerChars] at h
  split at h
  · exact isAtomChar_of_isDigit (Nat.isDigit_of_mem_toDigits (by decide) (by decide) h)
  · rcases List.mem_cons.mp h with rfl | h
    · decide
    · exact isAtomChar_of_isDigit (Nat.isDigit_of_mem_toDigits (by decide) (by decide) h)

theorem integerChars_ne_nil (value : Int64) : Text.integerChars value ≠ [] := by
  rw [Text.integerChars]
  split
  · exact Nat.toDigits_ne_nil
  · exact List.cons_ne_nil _ _

/-! ## Where the scanner stands

`Idle` and `Midway` are the two ways to stand between the characters of a
written form outside its strings, and `InText` is the one way inside. All three
name the tokens finished so far and forget where they were found. -/

namespace Scanner

/-- The tokens finished so far, without their places. -/
def spelled (scanner : Scanner) : List Token := scanner.tokens.toList.map Placed.token

/-- The scanner after several more characters. -/
def scan (scanner : Scanner) (source : List Char) : Scanner := source.foldl step scanner

/-- In the middle of nothing. -/
structure Idle (scanner : Scanner) (spelt : List Token) : Prop where
  pending : scanner.pending = .nothing
  spelled : scanner.spelled = spelt

/-- In the middle of an atom with the characters given. -/
structure Midway (scanner : Scanner) (chars : List Char) (spelt : List Token) : Prop where
  pending : (∃ first, scanner.pending = .atom first chars.reverse) ∨
    ∃ first, scanner.pending = .hash first ∧ chars = ['#']
  spelled : scanner.spelled = spelt

/-- In the middle of a string with the characters given, none of them open. -/
structure InText (scanner : Scanner) (raw : List Char) (spelt : List Token) : Prop where
  pending : ∃ first, scanner.pending = .text first false raw.reverse
  spelled : scanner.spelled = spelt

/-- Where the text of complete forms leaves the scanner: idle, or in an atom
that is complete as soon as anything else follows. -/
def Between (scanner : Scanner) (spelt : List Token) : Prop :=
  scanner.Idle spelt ∨
    ∃ chars before, scanner.Midway chars before ∧ spelt = before ++ [.atom chars]

theorem scan_cons (scanner : Scanner) (c : Char) (source : List Char) :
    scanner.scan (c :: source) = (scanner.step c).scan source := rfl

theorem scan_append (scanner : Scanner) (first rest : List Char) :
    scanner.scan (first ++ rest) = (scanner.scan first).scan rest := List.foldl_append

@[simp]
theorem spelled_emit (scanner : Scanner) (offset : Nat) (token : Token) :
    (scanner.emit offset token).spelled = scanner.spelled ++ [token] := by
  simp [spelled, emit]

@[simp]
theorem spelled_step (scanner : Scanner) (c : Char) :
    (scanner.step c).spelled = (scanner.take c).spelled := rfl

@[simp]
theorem pending_step (scanner : Scanner) (c : Char) :
    (scanner.step c).pending = (scanner.take c).pending := rfl

theorem Idle.step {scanner : Scanner} {c : Char} {spelt : List Token}
    (h : (scanner.take c).Idle spelt) : (scanner.step c).Idle spelt := ⟨h.1, h.2⟩

theorem Idle.take_eq {scanner : Scanner} {spelt : List Token} (h : scanner.Idle spelt)
    (c : Char) : scanner.take c = scanner.begin c := by
  rw [take, h.pending]

/-! ## Single characters -/

theorem begin_space (scanner : Scanner) : (scanner.begin ' ').Idle scanner.spelled := ⟨rfl, rfl⟩

theorem begin_opening (scanner : Scanner) (bracket : Bracket) :
    (scanner.begin bracket.opening).Idle (scanner.spelled ++ [.opening bracket]) := by
  cases bracket <;> exact ⟨rfl, spelled_emit _ _ _⟩

theorem begin_closing (scanner : Scanner) (bracket : Bracket) :
    (scanner.begin bracket.closing).Idle (scanner.spelled ++ [.closing bracket]) := by
  cases bracket <;> exact ⟨rfl, spelled_emit _ _ _⟩

theorem begin_quote (scanner : Scanner) :
    (scanner.begin '\'').Idle (scanner.spelled ++ [.sigil .quote]) := ⟨rfl, spelled_emit _ _ _⟩

theorem begin_text (scanner : Scanner) : (scanner.begin '"').InText [] scanner.spelled :=
  ⟨⟨_, rfl⟩, rfl⟩

/-- An atom begins at any character that it may hold, with `#` on probation. -/
theorem begin_atom (scanner : Scanner) {c : Char} (hc : isAtomChar c = true) :
    (scanner.begin c).Midway [c] scanner.spelled := by
  obtain ⟨hblank, h1, h2, h3, h4, h5, h6, h7⟩ := isAtomChar_iff.mp hc
  by_cases hhash : c = '#'
  · subst hhash
    exact ⟨.inr ⟨_, rfl, rfl⟩, rfl⟩
  · have hbegin : scanner.begin c = { scanner with pending := .atom scanner.offset [c] } := by
      rw [begin]
      · rw [if_neg (by simp [hblank])]
      all_goals assumption
    rw [hbegin]
    exact ⟨.inl ⟨_, rfl⟩, rfl⟩

theorem Idle.step_quoteMark {scanner : Scanner} {spelt : List Token} (h : scanner.Idle spelt) :
    (scanner.step '\'').Idle (spelt ++ [.sigil .quote]) := by
  apply Idle.step
  rw [h.take_eq, ← h.spelled]
  exact begin_quote scanner

theorem Idle.step_functionMark {scanner : Scanner} {spelt : List Token}
    (h : scanner.Idle spelt) :
    ((scanner.step '#').step '\'').Idle (spelt ++ [.sigil .function]) := by
  have hhash : scanner.take '#' = { scanner with pending := .hash scanner.offset } :=
    h.take_eq '#'
  have hpending : (scanner.step '#').pending = .hash scanner.offset := by
    rw [pending_step, hhash]
  have hspelled : (scanner.step '#').spelled = spelt := by
    rw [spelled_step, hhash]
    exact h.spelled
  have hmark : (scanner.step '#').take '\'' =
      { scanner.step '#' with pending := .nothing }.emit scanner.offset (.sigil .function) := by
    rw [take, hpending]
    rfl
  apply Idle.step
  rw [hmark]
  refine ⟨rfl, ?_⟩
  rw [spelled_emit, ← hspelled]
  rfl

/-- An atom goes on with any character that it may hold. -/
theorem Midway.step {scanner : Scanner} {chars : List Char} {spelt : List Token}
    (h : scanner.Midway chars spelt) {c : Char} (hc : isAtomChar c = true) :
    (scanner.step c).Midway (chars ++ [c]) spelt := by
  have hquote : c ≠ '\'' := by
    rintro rfl
    exact absurd hc (by decide)
  rcases h.pending with ⟨first, hp⟩ | ⟨first, hp, rfl⟩
  · have htake : scanner.take c = { scanner with pending := .atom first (c :: chars.reverse) } := by
      simp only [take, hp, extendAtom, hc, if_true]
    refine ⟨.inl ⟨first, ?_⟩, ?_⟩
    · rw [pending_step, htake, List.reverse_append]
      rfl
    · rw [spelled_step, htake]
      exact h.spelled
  · have htake : scanner.take c = { scanner with pending := .atom first [c, '#'] } := by
      simp only [take, hp, hquote, if_false, extendAtom, hc, if_true]
    refine ⟨.inl ⟨first, ?_⟩, ?_⟩
    · rw [pending_step, htake]
      rfl
    · rw [spelled_step, htake]
      exact h.spelled

/-- What cannot go on with an atom begins the next token once the atom is
finished. After a lone `#` a quote would not: it makes the mark of a function. -/
theorem Midway.take_eq {scanner : Scanner} {chars : List Char} {spelt : List Token}
    (h : scanner.Midway chars spelt) {c : Char} (hc : isAtomChar c = false)
    (hquote : c ≠ '\'') :
    ∃ ended : Scanner, ended.spelled = spelt ++ [.atom chars] ∧
      scanner.take c = ended.begin c := by
  rcases h.pending with ⟨first, hp⟩ | ⟨first, hp, rfl⟩
  · refine ⟨scanner.emit first (.atom chars), ?_, ?_⟩
    · rw [spelled_emit, h.spelled]
    · simp [take, hp, extendAtom, hc]
  · refine ⟨scanner.emit first (.atom ['#']), ?_, ?_⟩
    · rw [spelled_emit, h.spelled]
    · simp [take, hp, hquote, extendAtom, hc]

theorem Between.take_eq {scanner : Scanner} {spelt : List Token} (h : scanner.Between spelt)
    {c : Char} (hc : isAtomChar c = false) (hquote : c ≠ '\'') :
    ∃ ended : Scanner, ended.spelled = spelt ∧ scanner.take c = ended.begin c := by
  rcases h with hidle | ⟨chars, before, hmid, rfl⟩
  · exact ⟨scanner, hidle.spelled, hidle.take_eq c⟩
  · exact hmid.take_eq hc hquote

/-! ## What may follow a written form -/

theorem Between.step_space {scanner : Scanner} {spelt : List Token}
    (h : scanner.Between spelt) : (scanner.step ' ').Idle spelt := by
  obtain ⟨ended, rfl, htake⟩ := h.take_eq (c := ' ') (by decide) (by decide)
  apply Idle.step
  rw [htake]
  exact begin_space ended

theorem Between.step_closing {scanner : Scanner} {spelt : List Token}
    (h : scanner.Between spelt) (bracket : Bracket) :
    (scanner.step bracket.closing).Idle (spelt ++ [.closing bracket]) := by
  obtain ⟨ended, rfl, htake⟩ := h.take_eq (c := bracket.closing)
    (by cases bracket <;> decide) (by cases bracket <;> decide)
  apply Idle.step
  rw [htake]
  exact begin_closing ended bracket

theorem Between.finish {scanner : Scanner} {spelt : List Token} (h : scanner.Between spelt) :
    scanner.finish.toList.map Placed.token = spelt := by
  rcases h with hidle | ⟨chars, before, hmid, rfl⟩
  · rw [Scanner.finish, hidle.pending]
    exact hidle.spelled
  · rcases hmid.pending with ⟨first, hp⟩ | ⟨first, hp, rfl⟩
    · simp only [Scanner.finish, hp, List.reverse_reverse]
      rw [← hmid.spelled]
      exact spelled_emit _ _ _
    · simp only [Scanner.finish, hp]
      rw [← hmid.spelled]
      exact spelled_emit _ _ _

/-! ## Atoms and strings -/

theorem Midway.scan {scanner : Scanner} {chars : List Char} {spelt : List Token}
    (h : scanner.Midway chars spelt) {more : List Char} (hmore : ∀ c ∈ more, isAtomChar c = true) :
    (scanner.scan more).Midway (chars ++ more) spelt := by
  induction more generalizing scanner chars with
  | nil =>
      rw [List.append_nil]
      exact h
  | cons c more ih =>
      rw [scan_cons, ← List.singleton_append, ← List.append_assoc]
      exact ih (h.step (hmore c (by simp))) fun d hd => hmore d (by simp [hd])

theorem Idle.scan_atom {scanner : Scanner} {spelt : List Token} (h : scanner.Idle spelt)
    {chars : List Char} (hne : chars ≠ []) (hchars : ∀ c ∈ chars, isAtomChar c = true) :
    (scanner.scan chars).Between (spelt ++ [.atom chars]) := by
  obtain ⟨c, more, rfl⟩ := List.exists_cons_of_ne_nil hne
  have hbegin : (scanner.step c).Midway [c] spelt := by
    have hmid := begin_atom scanner (hchars c (by simp))
    rw [← h.take_eq, h.spelled] at hmid
    exact ⟨hmid.pending, hmid.spelled⟩
  refine .inr ⟨c :: more, spelt, ?_, rfl⟩
  exact hbegin.scan fun d hd => hchars d (by simp [hd])

theorem InText.step_plain {scanner : Scanner} {raw : List Char} {spelt : List Token}
    (h : scanner.InText raw spelt) {c : Char} (hquote : c ≠ '"') (hslash : c ≠ '\\') :
    (scanner.step c).InText (raw ++ [c]) spelt := by
  obtain ⟨first, hp⟩ := h.pending
  have htake : scanner.take c =
      { scanner with pending := .text first false (c :: raw.reverse) } := by
    simp [take, hp, hquote, hslash]
  refine ⟨⟨first, ?_⟩, ?_⟩
  · rw [pending_step, htake, List.reverse_append]
    rfl
  · rw [spelled_step, htake]
    exact h.spelled

theorem InText.scan_pair {scanner : Scanner} {raw : List Char} {spelt : List Token}
    (h : scanner.InText raw spelt) (c : Char) :
    (scanner.scan ['\\', c]).InText (raw ++ ['\\', c]) spelt := by
  obtain ⟨first, hp⟩ := h.pending
  have hslash : scanner.take '\\' =
      { scanner with pending := .text first true ('\\' :: raw.reverse) } := by
    simp [take, hp]
  have hpending : (scanner.step '\\').pending = .text first true ('\\' :: raw.reverse) := by
    rw [pending_step, hslash]
  have hend : (scanner.step '\\').take c =
      { scanner.step '\\' with pending := .text first false (c :: '\\' :: raw.reverse) } := by
    rw [take, hpending]
  rw [scan_cons, scan_cons]
  refine ⟨⟨first, ?_⟩, ?_⟩
  · rw [List.reverse_append]
    exact congrArg Scanner.pending hend
  · have hfirst : (scanner.step '\\').spelled = scanner.spelled := by
      rw [spelled_step, hslash]
      rfl
    exact (congrArg Scanner.spelled hend).trans (hfirst.trans h.spelled)

theorem InText.scan_escapedChar {scanner : Scanner} {raw : List Char} {spelt : List Token}
    (h : scanner.InText raw spelt) (c : Char) :
    (scanner.scan (escapedChar c)).InText (raw ++ escapedChar c) spelt := by
  unfold escapedChar
  split
  case h_5 => exact h.step_plain (by assumption) (by assumption)
  all_goals exact h.scan_pair _

theorem InText.scan_content {scanner : Scanner} {raw : List Char} {spelt : List Token}
    (h : scanner.InText raw spelt) (content : List Char) :
    (scanner.scan (content.flatMap escapedChar)).InText (raw ++ content.flatMap escapedChar)
      spelt := by
  induction content generalizing scanner raw with
  | nil =>
      rw [List.flatMap_nil, List.append_nil]
      exact h
  | cons c content ih =>
      rw [List.flatMap_cons, scan_append, ← List.append_assoc]
      exact ih (h.scan_escapedChar c)

theorem InText.step_quote {scanner : Scanner} {raw : List Char} {spelt : List Token}
    (h : scanner.InText raw spelt) : (scanner.step '"').Idle (spelt ++ [.text raw]) := by
  obtain ⟨first, hp⟩ := h.pending
  apply Idle.step
  simp only [take, hp, if_true, List.reverse_reverse]
  refine ⟨rfl, ?_⟩
  rw [spelled_emit, ← h.spelled]
  rfl

theorem Idle.scan_stringChars {scanner : Scanner} {spelt : List Token} (h : scanner.Idle spelt)
    (content : String) :
    (scanner.scan (stringChars content)).Idle
      (spelt ++ [.text (content.toList.flatMap escapedChar)]) := by
  have hopen : (scanner.step '"').InText [] spelt := by
    have htext := begin_text scanner
    rw [← h.take_eq, h.spelled] at htext
    exact ⟨htext.pending, htext.spelled⟩
  rw [stringChars, List.cons_append, scan_cons, scan_append]
  exact (hopen.scan_content content.toList).step_quote

end Scanner

/-! ## Whole forms -/

open Scanner

theorem isReadable_iff {name : String} :
    isReadable name = true ↔ name.toList ≠ [] ∧ (∀ c ∈ name.toList, isAtomChar c = true) ∧
      Text.integerLiteral? name.toList = none := by
  simp [isReadable, and_assoc]

/-- The items of a bracket, if the scanner finds the tokens of each of them. -/
theorem scan_spacedChars {items : List Form}
    (hitems : ∀ item ∈ items, ∀ (scanner : Scanner) (spelt : List Token), scanner.Idle spelt →
      (scanner.scan item.chars).Between (spelt ++ item.spelling))
    {scanner : Scanner} {spelt : List Token} (h : scanner.Idle spelt) :
    (scanner.scan (spacedChars items)).Between (spelt ++ spellingOf items) := by
  induction items generalizing scanner spelt with
  | nil =>
      rw [spellingOf, List.append_nil]
      exact .inl h
  | cons item rest ih =>
      have hitem := hitems item (by simp) scanner spelt h
      cases rest with
      | nil =>
          rw [spacedChars, spellingOf, spellingOf, List.append_nil]
          exact hitem
      | cons next rest =>
          rw [spacedChars, spellingOf, ← List.append_assoc, scan_append, scan_cons]
          · exact ih (fun item hi => hitems item (by simp [hi])) hitem.step_space
          · simp

/-- A bracket around items, given what the scanner makes of the items. -/
theorem scan_bracket {scanner : Scanner} {spelt tokens : List Token} {chars : List Char}
    (h : scanner.Idle spelt) (bracket : Bracket)
    (hinside : ∀ (inner : Scanner) (before : List Token), inner.Idle before →
      (inner.scan chars).Between (before ++ tokens)) :
    (scanner.scan (bracket.opening :: chars ++ [bracket.closing])).Between
      (spelt ++ (.opening bracket :: tokens ++ [.closing bracket])) := by
  have hopen : (scanner.step bracket.opening).Idle (spelt ++ [.opening bracket]) := by
    apply Idle.step
    rw [h.take_eq, ← h.spelled]
    exact begin_opening scanner bracket
  have hclosed := (hinside _ _ hopen).step_closing bracket
  rw [List.cons_append, scan_cons, scan_append, List.cons_append, List.append_cons,
    ← List.append_assoc]
  exact .inl hclosed

/-- The scanner cuts the text of a form into the tokens it was written with,
whatever came before. -/
theorem scan_chars (form : Form) : form.Readable →
    ∀ (scanner : Scanner) (spelt : List Token), scanner.Idle spelt →
      (scanner.scan form.chars).Between (spelt ++ form.spelling) := by
  induction form using Form.induct with
  | symbol name =>
      intro hread scanner spelt h
      obtain ⟨hne, hchars, -⟩ := isReadable_iff.mp (hread name (by simp [symbols]))
      rw [chars, spelling]
      exact h.scan_atom hne hchars
  | text content =>
      intro _ scanner spelt h
      rw [chars, spelling]
      exact .inl (h.scan_stringChars content)
  | int value =>
      intro _ scanner spelt h
      rw [chars, spelling]
      exact h.scan_atom (integerChars_ne_nil value) fun c => isAtomChar_of_mem_integerChars
  | quote inner ih =>
      intro hread scanner spelt h
      rw [chars, spelling, scan_cons, List.append_cons]
      exact ih hread _ _ h.step_quoteMark
  | function inner ih =>
      intro hread scanner spelt h
      rw [chars, spelling, scan_cons, scan_cons, List.append_cons]
      exact ih hread _ _ h.step_functionMark
  | list items ih =>
      intro hread scanner spelt h
      rw [chars, spelling]
      exact scan_bracket h .round fun inner before hidle =>
        scan_spacedChars (fun item hi => ih item hi (readable_list.mp hread item hi)) hidle
  | vector items ih =>
      intro hread scanner spelt h
      rw [chars, spelling]
      exact scan_bracket h .square fun inner before hidle =>
        scan_spacedChars (fun item hi => ih item hi (readable_vector.mp hread item hi)) hidle

theorem idle_start : Scanner.start.Idle [] := ⟨rfl, rfl⟩

/-- The tokens of forms written one after the other, with spaces between. -/
theorem tokens_spacedChars {forms : List Form} (hread : ∀ form ∈ forms, form.Readable) :
    (tokens (spacedChars forms)).map Placed.token = spellingOf forms := by
  have hscan := scan_spacedChars (fun form hf => scan_chars form (hread form hf)) idle_start
  exact hscan.finish

end Rulebook.Form
