import Rulebook.Proofs.Sequencing
import Rulebook.Proofs.Spelling

/-!
# Reading inverts writing on the well-formed forms

One half follows the tokens: given those that a form is written with, the
reader adds that form to the level it is filling and changes nothing else, as
long as the nesting leaves room. Reading is a fold, so the statement is about
any reader in the middle of its work, and a bracket's items are the same
statement one level further in.

The other half is an invariant. What the reader holds is readable and nests no
deeper than the levels around it allow, and each token keeps it so. Hence
everything that is read is well formed, and by the first half reads back.
-/

namespace Rulebook.Text

/-- The shortest spelling of an integer is a literal for it. -/
theorem integerLiteral?_integerChars (value : Int64) :
    integerLiteral? (integerChars value) = some value := by
  have hword : int64? value.toInt = some value := by
    rw [int64?, if_pos ⟨value.minValue_le_toInt, value.toInt_le⟩, Int64.ofInt_toInt]
  have hnatural : ∀ n, naturalLiteral? (Nat.toDigits 10 n) = some n := by
    intro n
    have hdigits : (Nat.toDigits 10 n).all Char.isDigit = true :=
      List.all_eq_true.mpr fun c hc => Nat.isDigit_of_mem_toDigits (by decide) (by decide) hc
    rw [naturalLiteral?, if_pos, Nat.ofDigitChars_ten_toDigits]
    simp [hdigits]
  rw [integerChars]
  split
  · next n hn =>
      have hsign : ∀ c ∈ Nat.toDigits 10 n, c ≠ '-' ∧ c ≠ '+' := by
        rintro c hc
        have hdigit := Nat.isDigit_of_mem_toDigits (by decide) (by decide) hc
        constructor <;> (rintro rfl; exact absurd hdigit (by decide))
      rw [integerLiteral?]
      · rw [hnatural]
        exact (congrArg int64? hn.symm).trans hword
      · intro digits h
        exact (hsign '-' (by simp [h])).1 rfl
      · intro digits h
        exact (hsign '+' (by simp [h])).2 rfl
  · next n hn =>
      have hvalue : -((n + 1 : Nat) : Int) = value.toInt := hn.symm
      rw [integerLiteral?, hnatural, Option.bind_eq_bind, Option.bind_some, hvalue, hword]

end Rulebook.Text

namespace Rulebook.Form

/-! ## Strings -/

theorem unescape_plain {c : Char} (hslash : c ≠ '\\') (offset : Nat) (rest : List Char) :
    unescape offset (c :: rest) = (unescape (offset + c.utf8Size) rest).map (c :: ·) := by
  rw [unescape]
  · intro h
    exact absurd h hslash
  · intro d tail h
    exact absurd h hslash

theorem unescape_escapedChar (c : Char) (offset : Nat) (rest : List Char) :
    ∃ next, unescape offset (escapedChar c ++ rest) = (unescape next rest).map (c :: ·) := by
  unfold escapedChar
  split
  case h_5 => exact ⟨_, unescape_plain (by assumption) offset rest⟩
  all_goals exact ⟨_, rfl⟩

/-- Resolving the escapes of a written string gives its contents back. -/
theorem unescape_flatMap_escapedChar (content : List Char) (offset : Nat) :
    unescape offset (content.flatMap escapedChar) = .ok content := by
  induction content generalizing offset with
  | nil => rfl
  | cons c content ih =>
      obtain ⟨next, hnext⟩ := unescape_escapedChar c offset (content.flatMap escapedChar)
      rw [List.flatMap_cons, hnext, ih]
      rfl

/-! ## Reading what was written -/

/-- The reader with one more form in the level it is filling. -/
def Reader.push (reader : Reader) (form : Form) : Reader :=
  { reader with level := reader.level.push form }

/-- The levels that the next form of a reader may still nest. -/
def Reader.Admits (reader : Reader) (levels : Nat) : Prop :=
  reader.level.depth + reader.level.sigils.length + levels ≤ maxNesting

theorem Level.nest_eq_ok {level : Level} {offset : Nat}
    (h : level.depth + level.sigils.length + 1 ≤ maxNesting) :
    level.nest offset = .ok (level.depth + level.sigils.length + 1) := if_pos h

namespace Reader

theorem step_atom (reader : Reader) (offset : Nat) (chars : List Char) :
    reader.step ⟨offset, .atom chars⟩ = .ok (reader.push (ofAtom chars)) := rfl

theorem step_text (reader : Reader) (offset : Nat) (content : String) :
    reader.step ⟨offset, .text (content.toList.flatMap escapedChar)⟩ =
      .ok (reader.push (.text content)) := by
  simp only [step, unescape_flatMap_escapedChar]
  show Except.ok (reader.push (.text (String.ofList content.toList))) = _
  rw [String.ofList_toList]

theorem step_sigil {reader : Reader} (h : reader.Admits 1) (offset : Nat) (sigil : Sigil) :
    reader.step ⟨offset, .sigil sigil⟩ =
      .ok { reader with
        level := { reader.level with sigils := (offset, sigil) :: reader.level.sigils } } := by
  simp only [step, Level.nest_eq_ok h]
  rfl

theorem step_opening {reader : Reader} (h : reader.Admits 1) (offset : Nat) (bracket : Bracket) :
    reader.step ⟨offset, .opening bracket⟩ =
      .ok ⟨.empty (reader.level.depth + reader.level.sigils.length + 1),
        ⟨bracket, offset, reader.level⟩ :: reader.around⟩ := by
  simp only [step, Level.nest_eq_ok h]
  rfl

theorem step_closing (bracket : Bracket) (depth opened offset : Nat) (items : List Form)
    (outer : Reader) :
    Reader.step ⟨⟨depth, items, []⟩, ⟨bracket, opened, outer.level⟩ :: outer.around⟩
        ⟨offset, .closing bracket⟩ =
      .ok (outer.push (bracket.enclose items.reverse)) := by
  simp only [step, if_true]
  rfl

end Reader

/-- The items of a level, if the reader adds each of them. -/
theorem foldlM_spellingOf (depth : Nat) (around : List OpenBracket) {items : List Form}
    (hitems : ∀ item ∈ items, ∀ (reader : Reader), reader.Admits item.nesting →
      ∀ placed : List Placed, placed.map Placed.token = item.spelling →
        placed.foldlM Reader.step reader = .ok (reader.push item))
    (hdepth : depth + nestingOf items ≤ maxNesting) (before : List Form)
    {placed : List Placed} (hplaced : placed.map Placed.token = spellingOf items) :
    placed.foldlM Reader.step ⟨⟨depth, before, []⟩, around⟩ =
      .ok ⟨⟨depth, items.reverse ++ before, []⟩, around⟩ := by
  induction items generalizing before placed with
  | nil =>
      rw [List.map_eq_nil_iff.mp hplaced]
      rfl
  | cons item items ih =>
      rw [nestingOf] at hdepth
      rw [spellingOf] at hplaced
      obtain ⟨first, rest, rfl, hfirst, hrest⟩ := List.map_eq_append_iff.mp hplaced
      have hitem : first.foldlM Reader.step ⟨⟨depth, before, []⟩, around⟩ =
          .ok ⟨⟨depth, item :: before, []⟩, around⟩ := by
        refine hitems item (by simp) _ ?_ first hfirst
        show depth + 0 + item.nesting ≤ maxNesting
        omega
      rw [List.foldlM_append, hitem, List.reverse_cons, List.append_assoc]
      exact ih (fun item hi => hitems item (by simp [hi])) (by omega) (item :: before) hrest

/-- A bracket around items, given what the reader makes of the items. -/
theorem foldlM_bracket {reader : Reader} {items : List Form} (bracket : Bracket)
    (hitems : ∀ item ∈ items, ∀ (reader : Reader), reader.Admits item.nesting →
      ∀ placed : List Placed, placed.map Placed.token = item.spelling →
        placed.foldlM Reader.step reader = .ok (reader.push item))
    (hreader : reader.Admits (nestingOf items + 1)) {placed : List Placed}
    (hplaced : placed.map Placed.token =
      .opening bracket :: spellingOf items ++ [.closing bracket]) :
    placed.foldlM Reader.step reader = .ok (reader.push (bracket.enclose items)) := by
  rw [List.cons_append] at hplaced
  obtain ⟨⟨opened, token⟩, rest, rfl, rfl, hrest⟩ := List.map_eq_cons_iff.mp hplaced
  obtain ⟨inside, last, rfl, hinside, hlast⟩ := List.map_eq_append_iff.mp hrest
  obtain ⟨⟨offset, token⟩, tail, rfl, rfl, htail⟩ := List.map_eq_cons_iff.mp hlast
  rw [List.map_eq_nil_iff.mp htail]
  have hroom : reader.level.depth + reader.level.sigils.length + (nestingOf items + 1)
      ≤ maxNesting := hreader
  have hopen : reader.Admits 1 := by
    show reader.level.depth + reader.level.sigils.length + 1 ≤ maxNesting
    omega
  have hfold := foldlM_spellingOf (reader.level.depth + reader.level.sigils.length + 1)
    (⟨bracket, opened, reader.level⟩ :: reader.around) hitems (by omega) [] hinside
  rw [List.append_nil] at hfold
  have hclose := Reader.step_closing bracket
    (reader.level.depth + reader.level.sigils.length + 1) opened offset items.reverse reader
  rw [List.reverse_reverse] at hclose
  calc List.foldlM Reader.step reader (⟨opened, .opening bracket⟩ :: (inside ++ [⟨offset, _⟩]))
    _ = List.foldlM Reader.step ⟨.empty (reader.level.depth + reader.level.sigils.length + 1),
          ⟨bracket, opened, reader.level⟩ :: reader.around⟩ (inside ++ [⟨offset, _⟩]) := by
        rw [List.foldlM_cons, Reader.step_opening hopen]
        rfl
    _ = List.foldlM Reader.step ⟨⟨reader.level.depth + reader.level.sigils.length + 1,
          items.reverse, []⟩, ⟨bracket, opened, reader.level⟩ :: reader.around⟩
          [⟨offset, .closing bracket⟩] := by
        rw [List.foldlM_append, Level.empty, hfold]
        rfl
    _ = .ok (reader.push (bracket.enclose items)) := by
        rw [List.foldlM_cons, hclose]
        rfl

/-- A sigil before a form, given what the reader makes of the form. -/
theorem foldlM_sigil {reader : Reader} {inner : Form} (sigil : Sigil)
    (hinner : ∀ (reader : Reader), reader.Admits inner.nesting →
      ∀ placed : List Placed, placed.map Placed.token = inner.spelling →
        placed.foldlM Reader.step reader = .ok (reader.push inner))
    (hreader : reader.Admits (inner.nesting + 1)) {placed : List Placed}
    (hplaced : placed.map Placed.token = .sigil sigil :: inner.spelling) :
    placed.foldlM Reader.step reader = .ok (reader.push (sigil.mark inner)) := by
  obtain ⟨⟨offset, token⟩, rest, rfl, rfl, hrest⟩ := List.map_eq_cons_iff.mp hplaced
  have hroom : reader.level.depth + reader.level.sigils.length + (inner.nesting + 1)
      ≤ maxNesting := hreader
  have hmark : reader.Admits 1 := by
    show reader.level.depth + reader.level.sigils.length + 1 ≤ maxNesting
    omega
  rw [List.foldlM_cons, Reader.step_sigil hmark]
  refine hinner _ ?_ rest hrest
  show reader.level.depth + (reader.level.sigils.length + 1) + inner.nesting ≤ maxNesting
  omega

/-- Given the tokens that a form is written with, the reader adds the form. -/
theorem foldlM_spelling (form : Form) : form.Readable →
    ∀ (reader : Reader), reader.Admits form.nesting →
      ∀ placed : List Placed, placed.map Placed.token = form.spelling →
        placed.foldlM Reader.step reader = .ok (reader.push form) := by
  induction form using Form.induct with
  | symbol name =>
      intro hread reader _ placed hplaced
      obtain ⟨-, -, hliteral⟩ := isReadable_iff.mp (hread name (by simp [symbols]))
      rw [spelling] at hplaced
      obtain ⟨⟨offset, token⟩, tail, rfl, rfl, htail⟩ := List.map_eq_cons_iff.mp hplaced
      have hatom : ofAtom name.toList = .symbol name := by
        rw [ofAtom, hliteral, String.ofList_toList]
      rw [List.map_eq_nil_iff.mp htail, List.foldlM_cons, Reader.step_atom, hatom]
      rfl
  | text content =>
      intro _ reader _ placed hplaced
      rw [spelling] at hplaced
      obtain ⟨⟨offset, token⟩, tail, rfl, rfl, htail⟩ := List.map_eq_cons_iff.mp hplaced
      rw [List.map_eq_nil_iff.mp htail, List.foldlM_cons, Reader.step_text]
      rfl
  | int value =>
      intro _ reader _ placed hplaced
      rw [spelling] at hplaced
      obtain ⟨⟨offset, token⟩, tail, rfl, rfl, htail⟩ := List.map_eq_cons_iff.mp hplaced
      have hatom : ofAtom (Text.integerChars value) = .int value := by
        rw [ofAtom, Text.integerLiteral?_integerChars]
      rw [List.map_eq_nil_iff.mp htail, List.foldlM_cons, Reader.step_atom, hatom]
      rfl
  | quote inner ih =>
      intro hread reader hroom placed hplaced
      rw [spelling] at hplaced
      exact foldlM_sigil .quote (ih hread) hroom hplaced
  | function inner ih =>
      intro hread reader hroom placed hplaced
      rw [spelling] at hplaced
      exact foldlM_sigil .function (ih hread) hroom hplaced
  | list items ih =>
      intro hread reader hroom placed hplaced
      exact foldlM_bracket .round (fun item hi => ih item hi (readable_list.mp hread item hi))
        hroom hplaced
  | vector items ih =>
      intro hread reader hroom placed hplaced
      exact foldlM_bracket .square (fun item hi => ih item hi (readable_vector.mp hread item hi))
        hroom hplaced

theorem nestingOf_le {items : List Form} {bound : Nat}
    (h : ∀ item ∈ items, item.nesting ≤ bound) : nestingOf items ≤ bound := by
  induction items with
  | nil => exact Nat.zero_le _
  | cons item items ih =>
      rw [nestingOf]
      exact Nat.max_le.mpr ⟨h item (by simp), ih fun other ho => h other (by simp [ho])⟩

/-- Well-formed forms, written with spaces between them, read back. -/
theorem readChars_spacedChars {forms : List Form} (h : ∀ form ∈ forms, form.WellFormed) :
    readChars (spacedChars forms) = .ok forms := by
  have htokens := tokens_spacedChars fun form hf => (h form hf).1
  have hnesting : 0 + nestingOf forms ≤ maxNesting := by
    rw [Nat.zero_add]
    exact nestingOf_le fun form hf => (h form hf).2
  have hfold := foldlM_spellingOf 0 []
    (fun form hf => foldlM_spelling form (h form hf).1) hnesting [] htokens
  rw [readChars, Reader.start, Level.empty, hfold, List.append_nil]
  show Except.ok forms.reverse.reverse = .ok forms
  rw [List.reverse_reverse]

/-! ## What is read is well formed -/

/-- An atom is not empty and holds only characters that atoms may hold. -/
def Token.Sound : Token → Prop
  | .atom chars => chars ≠ [] ∧ ∀ c ∈ chars, isAtomChar c = true
  | _ => True

/-- The same of an atom that the scanner is in the middle of. -/
def Pending.Sound : Pending → Prop
  | .atom _ chars => chars ≠ [] ∧ ∀ c ∈ chars, isAtomChar c = true
  | _ => True

/-- The scanner holds sound tokens only. -/
structure Scanner.Sound (scanner : Scanner) : Prop where
  pending : scanner.pending.Sound
  tokens : ∀ placed ∈ scanner.tokens, placed.token.Sound

namespace Scanner

theorem Sound.emit {scanner : Scanner} (h : scanner.Sound) {token : Token} (ht : token.Sound)
    (offset : Nat) : (scanner.emit offset token).Sound := by
  refine ⟨h.pending, fun placed hp => ?_⟩
  rcases Array.mem_push.mp hp with hp | rfl
  · exact h.tokens placed hp
  · exact ht

theorem Sound.withPending {scanner : Scanner} (h : scanner.Sound) {pending : Pending}
    (hp : pending.Sound) : { scanner with pending }.Sound := ⟨hp, h.tokens⟩

theorem Sound.begin {scanner : Scanner} (h : scanner.Sound) (c : Char) :
    (scanner.begin c).Sound := by
  have hidle : { scanner with pending := .nothing }.Sound := h.withPending trivial
  unfold Scanner.begin
  split
  case h_9 =>
    split
    · exact hidle
    · next hblank =>
        refine h.withPending ⟨List.cons_ne_nil _ _, fun d hd => ?_⟩
        rw [List.mem_singleton.mp hd]
        refine isAtomChar_iff.mpr ⟨by simpa using hblank, ?_⟩
        refine ⟨?_, ?_, ?_, ?_, ?_, ?_, ?_⟩ <;> assumption
  case h_6 | h_7 | h_8 =>
    apply h.withPending
    trivial
  all_goals
    apply hidle.emit
    trivial

theorem Sound.extendAtom {scanner : Scanner} (h : scanner.Sound) {first : Nat}
    {chars : List Char} (hchars : (Pending.atom first chars).Sound) (c : Char) :
    (scanner.extendAtom first chars c).Sound := by
  unfold Scanner.extendAtom
  split
  · next hc =>
      refine h.withPending ⟨List.cons_ne_nil _ _, fun d hd => ?_⟩
      rcases List.mem_cons.mp hd with rfl | hd
      · exact hc
      · exact hchars.2 d hd
  · refine Sound.begin (h.emit ?_ first) c
    exact ⟨by simpa using hchars.1, fun d hd => hchars.2 d (List.mem_reverse.mp hd)⟩

theorem Sound.step {scanner : Scanner} (h : scanner.Sound) (c : Char) :
    (scanner.step c).Sound := by
  have hidle : { scanner with pending := .nothing }.Sound := h.withPending trivial
  have htake : (scanner.take c).Sound := by
    unfold Scanner.take
    split
    · exact h.begin c
    · split
      · exact hidle
      · exact h
    · split
      · exact hidle.emit (by trivial) _
      · refine h.extendAtom ⟨List.cons_ne_nil _ _, fun d hd => ?_⟩ c
        rw [List.mem_singleton.mp hd]
        decide
    · next first chars hp =>
        have hpending := h.pending
        rw [hp] at hpending
        exact h.extendAtom hpending c
    · exact h.withPending trivial
    · split
      · exact hidle.emit (by trivial) _
      · exact h.withPending trivial
  exact ⟨htake.pending, htake.tokens⟩

theorem Sound.finish {scanner : Scanner} (h : scanner.Sound) :
    ∀ placed ∈ scanner.finish, placed.token.Sound := by
  unfold Scanner.finish
  split
  · exact h.tokens
  · exact h.tokens
  · refine (h.emit ?_ _).tokens
    exact ⟨List.cons_ne_nil _ _, fun d hd => by rw [List.mem_singleton.mp hd]; decide⟩
  · next first chars hp =>
      have hpending := h.pending
      rw [hp] at hpending
      refine (h.emit ?_ _).tokens
      exact ⟨by simpa using hpending.1, fun d hd => hpending.2 d (List.mem_reverse.mp hd)⟩
  · exact (h.emit (by trivial) _).tokens

theorem Sound.scan {scanner : Scanner} (h : scanner.Sound) (source : List Char) :
    (scanner.scan source).Sound := by
  induction source generalizing scanner with
  | nil => exact h
  | cons c source ih => exact ih (h.step c)

end Scanner

theorem sound_of_mem_tokens {source : List Char} {placed : Placed}
    (h : placed ∈ tokens source) : placed.token.Sound := by
  have hstart : Scanner.start.Sound :=
    ⟨trivial, fun placed hp => absurd hp (by simp [Scanner.start])⟩
  exact (hstart.scan source).finish placed (Array.mem_toList_iff.mp h)

/-- What may stand in a level: readable forms that nest no deeper than the
level allows. -/
structure Level.Sound (level : Level) : Prop where
  items : ∀ item ∈ level.items, item.Readable ∧ level.depth + item.nesting ≤ maxNesting
  sigils : level.depth + level.sigils.length ≤ maxNesting

/-- The levels around one of the depth given are sound, and each opens just
below the next. -/
def AroundSound : Nat → List OpenBracket → Prop
  | depth, [] => depth = 0
  | depth, opened :: around =>
    opened.outer.Sound ∧ depth = opened.outer.depth + opened.outer.sigils.length + 1 ∧
      AroundSound opened.outer.depth around

/-- Everything that the reader holds is sound. -/
structure Reader.Sound (reader : Reader) : Prop where
  level : reader.level.Sound
  around : AroundSound reader.level.depth reader.around

theorem Reader.sound_start : Reader.start.Sound :=
  ⟨⟨fun _ hi => absurd hi List.not_mem_nil, Nat.zero_le _⟩, rfl⟩

theorem readable_ofAtom {chars : List Char} (h : (Token.atom chars).Sound) :
    (ofAtom chars).Readable := by
  unfold ofAtom
  split
  · intro name hn
    simp [symbols] at hn
  · next hliteral =>
      intro name hn
      rw [symbols, List.mem_singleton] at hn
      subst hn
      rw [isReadable_iff, String.toList_ofList]
      exact ⟨h.1, h.2, hliteral⟩

theorem nesting_ofAtom (chars : List Char) : (ofAtom chars).nesting = 0 := by
  unfold ofAtom
  split <;> rfl

theorem symbols_mark (sigil : Sigil) (form : Form) : (sigil.mark form).symbols = form.symbols := by
  cases sigil <;> rfl

theorem nesting_mark (sigil : Sigil) (form : Form) :
    (sigil.mark form).nesting = form.nesting + 1 := by
  cases sigil <;> rfl

/-- The waiting sigils leave a form's symbols alone and nest it once each. -/
theorem foldl_mark (sigils : List (Nat × Sigil)) (form : Form) :
    (sigils.foldl (fun inner sigil => sigil.2.mark inner) form).symbols = form.symbols ∧
      (sigils.foldl (fun inner sigil => sigil.2.mark inner) form).nesting =
        form.nesting + sigils.length := by
  induction sigils generalizing form with
  | nil => exact ⟨rfl, rfl⟩
  | cons sigil sigils ih =>
      obtain ⟨hsymbols, hnesting⟩ := ih (sigil.2.mark form)
      rw [symbols_mark] at hsymbols
      rw [nesting_mark] at hnesting
      refine ⟨hsymbols, hnesting.trans ?_⟩
      rw [List.length_cons]
      omega

theorem Level.Sound.push {level : Level} (h : level.Sound) {form : Form} (hread : form.Readable)
    (hnest : level.depth + level.sigils.length + form.nesting ≤ maxNesting) :
    (level.push form).Sound := by
  obtain ⟨hsymbols, hnesting⟩ := foldl_mark level.sigils form
  refine ⟨fun item hi => ?_, ?_⟩
  · rcases List.mem_cons.mp hi with rfl | hi
    · refine ⟨fun name hn => hread name (hsymbols ▸ hn), ?_⟩
      show level.depth + _ ≤ maxNesting
      omega
    · exact h.items item hi
  · have hsigils := h.sigils
    show level.depth + 0 ≤ maxNesting
    omega

theorem Reader.Sound.push {reader : Reader} (h : reader.Sound) {form : Form}
    (hread : form.Readable) (hroom : reader.Admits form.nesting) : (reader.push form).Sound :=
  ⟨h.level.push hread hroom, h.around⟩

theorem Level.nest_eq_ok_iff {level : Level} {offset depth : Nat} :
    level.nest offset = .ok depth ↔
      depth = level.depth + level.sigils.length + 1 ∧ depth ≤ maxNesting := by
  unfold Level.nest
  dsimp only
  split
  · next h =>
      constructor
      · intro hok
        injection hok with hok
        omega
      · rintro ⟨rfl, -⟩
        rfl
  · next h =>
      constructor
      · intro hok
        cases hok
      · rintro ⟨rfl, hle⟩
        exact absurd hle h

theorem Level.close_eq_ok {level : Level} {items : List Form} (h : level.close = .ok items) :
    items = level.items.reverse := by
  unfold Level.close at h
  split at h
  · cases h
  · injection h with h
    exact h.symm

theorem Level.sigils_of_close {level : Level} {items : List Form} (h : level.close = .ok items) :
    level.sigils = [] := by
  unfold Level.close at h
  split at h
  · cases h
  · next hlast => exact List.getLast?_eq_none_iff.mp hlast

/-- A closed bracket is sound where the bracket was opened. -/
theorem Level.Sound.enclose {level : Level} (h : level.Sound) (bracket : Bracket) :
    (bracket.enclose level.items.reverse).Readable ∧
      level.depth + (bracket.enclose level.items.reverse).nesting ≤ maxNesting + 1 := by
  have hread : ∀ item ∈ level.items.reverse, item.Readable :=
    fun item hi => (h.items item (List.mem_reverse.mp hi)).1
  have hnest : nestingOf level.items.reverse ≤ maxNesting - level.depth :=
    nestingOf_le fun item hi => by
      have := (h.items item (List.mem_reverse.mp hi)).2
      omega
  have hdepth : level.depth ≤ maxNesting := by
    have := h.sigils
    omega
  cases bracket with
  | round =>
      refine ⟨readable_list.mpr hread, ?_⟩
      show level.depth + (nestingOf level.items.reverse + 1) ≤ maxNesting + 1
      omega
  | square =>
      refine ⟨readable_vector.mpr hread, ?_⟩
      show level.depth + (nestingOf level.items.reverse + 1) ≤ maxNesting + 1
      omega

/-- One token keeps the reader sound. -/
theorem Reader.Sound.step {reader next : Reader} (h : reader.Sound) {placed : Placed}
    (ht : placed.token.Sound) (hstep : reader.step placed = .ok next) : next.Sound := by
  obtain ⟨offset, token⟩ := placed
  cases token with
  | opening bracket =>
      obtain ⟨depth, hnest, hnext⟩ := bind_eq_ok.mp hstep
      obtain ⟨rfl, hdepth⟩ := Level.nest_eq_ok_iff.mp hnest
      cases hnext
      refine ⟨⟨fun item hi => absurd hi List.not_mem_nil, hdepth⟩, ?_⟩
      exact ⟨h.level, rfl, h.around⟩
  | closing bracket =>
      obtain ⟨level, around⟩ := reader
      simp only [Reader.step] at hstep
      split at hstep
      · next opened rest =>
          split at hstep
          · next hkind =>
              obtain ⟨items, hclose, hnext⟩ := bind_eq_ok.mp hstep
              cases hnext
              rw [Level.close_eq_ok hclose]
              obtain ⟨hread, hnest⟩ := h.level.enclose bracket
              obtain ⟨houter, hdepth, hrest⟩ := h.around
              refine ⟨houter.push hread ?_, hrest⟩
              dsimp only at hdepth hnest
              omega
          · cases hstep
      · cases hstep
  | sigil sigil =>
      obtain ⟨depth, hnest, hnext⟩ := bind_eq_ok.mp hstep
      obtain ⟨rfl, hdepth⟩ := Level.nest_eq_ok_iff.mp hnest
      cases hnext
      refine ⟨⟨h.level.items, ?_⟩, h.around⟩
      show reader.level.depth + (reader.level.sigils.length + 1) ≤ maxNesting
      omega
  | text raw =>
      obtain ⟨content, -, hnext⟩ := bind_eq_ok.mp hstep
      cases hnext
      exact h.push (fun name hn => absurd hn (by simp [symbols])) h.level.sigils
  | unterminated => cases hstep
  | atom chars =>
      cases hstep
      refine h.push (readable_ofAtom ht) ?_
      rw [nesting_ofAtom]
      exact h.level.sigils

theorem Reader.Sound.foldlM {reader final : Reader} (h : reader.Sound) {placed : List Placed}
    (ht : ∀ one ∈ placed, one.token.Sound)
    (hfold : placed.foldlM Reader.step reader = .ok final) : final.Sound := by
  induction placed generalizing reader with
  | nil =>
      cases hfold
      exact h
  | cons first rest ih =>
      rw [List.foldlM_cons] at hfold
      obtain ⟨next, hstep, hrest⟩ := bind_eq_ok.mp hfold
      exact ih (h.step (ht first (by simp)) hstep) (fun one ho => ht one (by simp [ho])) hrest

/-- Every form that is read is well formed. -/
theorem wellFormed_of_readChars {source : List Char} {forms : List Form}
    (h : readChars source = .ok forms) : ∀ form ∈ forms, form.WellFormed := by
  obtain ⟨reader, hfold, hfinish⟩ := bind_eq_ok.mp h
  have hsound := Reader.sound_start.foldlM (fun one ho => sound_of_mem_tokens ho) hfold
  obtain ⟨level, around⟩ := reader
  simp only [Reader.finish] at hfinish
  split at hfinish
  · cases hfinish
  · have hdepth : level.depth = 0 := hsound.around
    rw [Level.close_eq_ok hfinish]
    intro form hf
    obtain ⟨hread, hnest⟩ := hsound.level.items form (List.mem_reverse.mp hf)
    exact ⟨hread, by omega⟩

/-! ## The two together -/

theorem toList_render (form : Form) : form.render.toList = form.chars := String.toList_ofList

theorem spacedChars_eq_intercalate (forms : List Form) :
    spacedChars forms = [' '].intercalate (forms.map chars) := by
  induction forms with
  | nil => rfl
  | cons form rest ih =>
      cases rest with
      | nil => simp [spacedChars]
      | cons next rest =>
          rw [spacedChars, ih]
          · simp [List.intercalate]
          · simp

theorem readOne_eq_ok {source : String} {form : Form} :
    readOne source = .ok form ↔ read source = .ok [form] := by
  constructor
  · intro h
    obtain ⟨forms, hread, hone⟩ := bind_eq_ok.mp h
    rw [hread]
    split at hone
    · cases hone
      rfl
    · cases hone
  · intro h
    rw [readOne, h]
    rfl

/-- The text of a form reads back as the form just when the form is well formed;
and a text that can be read at all has only well-formed forms, so that writing
them with spaces between and reading again gives them back. -/
theorem read_render_iff_wellFormed :
    (∀ form : Form, readOne form.render = .ok form ↔ form.WellFormed) ∧
      ∀ (source : String) (forms : List Form), read source = .ok forms →
        (∀ form ∈ forms, form.WellFormed) ∧
          read (" ".intercalate (forms.map render)) = .ok forms := by
  constructor
  · intro form
    rw [readOne_eq_ok, read, toList_render]
    constructor
    · intro h
      exact wellFormed_of_readChars h form (by simp)
    · intro h
      have hone : ∀ only ∈ [form], only.WellFormed := by simpa using h
      exact readChars_spacedChars hone
  · intro source forms h
    have hforms := wellFormed_of_readChars h
    refine ⟨hforms, ?_⟩
    have htext : (" ".intercalate (forms.map render)).toList = spacedChars forms := by
      rw [String.toList_intercalate, spacedChars_eq_intercalate, List.map_map]
      congr 2
      exact funext toList_render
    rw [read, htext]
    exact readChars_spacedChars hforms

/-- A text with an escape, a leading `#`, a signed number and digits of another
script reads back in its shortest spelling. -/
theorem read_render_of_mixed_text :
    read "(a \"\\n\" #b +7) ; c\n'[٣]" =
        .ok [.list [.symbol "a", .text "\n", .symbol "#b", .int 7],
          .quote (.vector [.symbol "٣"])] ∧
      read "(a \"\\n\" #b 7) '[٣]" =
        .ok [.list [.symbol "a", .text "\n", .symbol "#b", .int 7],
          .quote (.vector [.symbol "٣"])] := by
  have h : read "(a \"\\n\" #b +7) ; c\n'[٣]" =
      .ok [.list [.symbol "a", .text "\n", .symbol "#b", .int 7],
        .quote (.vector [.symbol "٣"])] := by
    rfl
  exact ⟨h, (read_render_iff_wellFormed.2 _ _ h).2⟩

end Rulebook.Form
