import Rulebook.Proofs.TokenPlaces

/-!
# The byte that a fault is about

A fault names a byte, and the byte comes from one of four places: the token at
which the reader stopped, a bracket that it still holds, the first of the sigils
that wait, or the inside of a string. What a fault says of its byte can be said
without the reader, of the tokens before it and of those among them that are
not finished: a bracket until it is closed, a sigil until it has its form.

The reader holds the unfinished ones of the tokens behind it and nothing else.
This is an invariant of its steps, and with it each way in which a step or the
end of the text can fail becomes a statement about the text. None of these
loses anything, so a fault is reported exactly when the text has it, and no text
has two.
-/

namespace Rulebook

/-- The byte that the fault is about. -/
def ReadFault.place? : ReadFault → Option Nat
  | .unexpectedClose _ offset => some offset
  | .unclosed _ offset => some offset
  | .unterminatedText offset => some offset
  | .danglingSigil offset => some offset
  | .unknownEscape _ offset => some offset
  | .nestedTooDeep _ offset => some offset
  | .notOneForm _ => none

namespace Form

/-! ## What the reader holds -/

def Placed.isSigil (placed : Placed) : Bool :=
  match placed.token with
  | .sigil _ => true
  | _ => false

/-- What is unfinished after one more token: a bracket until it is closed, a
sigil until the form after it is complete. No sigil waits where a bracket is
closed, so the latest is then the bracket. -/
def unfinishedWith (waiting : List Placed) (placed : Placed) : List Placed :=
  match placed.token with
  | .opening _ | .sigil _ => placed :: waiting
  | .closing _ => waiting.tail.dropWhile Placed.isSigil
  | .text _ | .unterminated | .atom _ => waiting.dropWhile Placed.isSigil

/-- The brackets and sigils that are unfinished after these tokens, latest
first. -/
def unfinished (read : List Placed) : List Placed := read.foldl unfinishedWith []

/-- The innermost open bracket after these tokens. -/
def innermost (read : List Placed) : Option Placed :=
  (unfinished read).find? fun one => !one.isSigil

/-- The sigils that wait in a level, latest first. -/
def Level.placed (level : Level) : List Placed :=
  level.sigils.map fun sigil => ⟨sigil.1, .sigil sigil.2⟩

/-- Open brackets, each with the sigils that wait for it to be closed. -/
def bracketsAround (around : List OpenBracket) : List Placed :=
  around.flatMap fun opened => ⟨opened.offset, .opening opened.bracket⟩ :: opened.outer.placed

/-- Having read these tokens, the reader holds the unfinished ones, and the
sigils of its level are the ones that the tokens end with. -/
structure Reader.Holds (reader : Reader) (read : List Placed) : Prop where
  unfinished : unfinished read = reader.level.placed ++ bracketsAround reader.around
  run : read.reverse.takeWhile Placed.isSigil = reader.level.placed

theorem Level.isSigil_of_mem_placed {level : Level} : ∀ one ∈ level.placed, one.isSigil = true := by
  intro one hone
  obtain ⟨sigil, -, rfl⟩ := List.mem_map.mp hone
  rfl

theorem dropWhile_bracketsAround (around : List OpenBracket) :
    (bracketsAround around).dropWhile Placed.isSigil = bracketsAround around := by
  cases around <;> rfl

theorem Level.dropWhile_placed (level : Level) (around : List OpenBracket) :
    (level.placed ++ bracketsAround around).dropWhile Placed.isSigil = bracketsAround around := by
  rw [List.dropWhile_append_of_pos level.isSigil_of_mem_placed, dropWhile_bracketsAround]

theorem unfinished_append (read : List Placed) (placed : Placed) :
    unfinished (read ++ [placed]) = unfinishedWith (unfinished read) placed := by
  rw [unfinished, List.foldl_append]
  rfl

theorem mem_of_mem_unfinished {read : List Placed} {one : Placed} (h : one ∈ unfinished read) :
    one ∈ read := by
  induction read using List.reverseRecOn with
  | nil => exact h
  | append_singleton read placed ih =>
      have hmem : one = placed ∨ one ∈ unfinished read := by
        rw [unfinished_append, unfinishedWith] at h
        split at h
        · exact List.mem_cons.mp h
        · exact List.mem_cons.mp h
        · exact .inr (List.mem_of_mem_tail ((List.dropWhile_sublist _).mem h))
        all_goals exact .inr ((List.dropWhile_sublist _).mem h)
      rcases hmem with rfl | hmem
      · simp
      · simp [ih hmem]

theorem takeWhile_reverse_append (read : List Placed) (placed : Placed) :
    (read ++ [placed]).reverse.takeWhile Placed.isSigil =
      if placed.isSigil then placed :: read.reverse.takeWhile Placed.isSigil else [] := by
  rw [List.reverse_append, List.reverse_singleton, List.singleton_append, List.takeWhile_cons]

/-- A token with a complete form leaves no sigil in its level. -/
theorem Reader.Holds.push {reader : Reader} {read : List Placed} (h : reader.Holds read)
    {placed : Placed} (hsigil : placed.isSigil = false)
    (hwith : unfinishedWith (Form.unfinished read) placed =
      (Form.unfinished read).dropWhile Placed.isSigil) (form : Form) :
    (reader.push form).Holds (read ++ [placed]) := by
  constructor
  · rw [unfinished_append, hwith, h.unfinished, Level.dropWhile_placed]
    rfl
  · rw [takeWhile_reverse_append, hsigil]
    rfl

/-- One token more is held or finishes what waited for it. -/
theorem Reader.Holds.step {reader next : Reader} {read : List Placed} (h : reader.Holds read)
    {placed : Placed} (hstep : reader.step placed = .ok next) : next.Holds (read ++ [placed]) := by
  obtain ⟨offset, token⟩ := placed
  cases token with
  | opening bracket =>
      obtain ⟨depth, -, hnext⟩ := bind_eq_ok.mp hstep
      cases hnext
      constructor
      · rw [unfinished_append, h.unfinished]
        rfl
      · rw [takeWhile_reverse_append]
        rfl
  | closing bracket =>
      obtain ⟨level, around⟩ := reader
      simp only [Reader.step] at hstep
      split at hstep
      · next opened rest =>
          split at hstep
          · obtain ⟨items, hclose, hnext⟩ := bind_eq_ok.mp hstep
            cases hnext
            have hplaced : level.placed = [] := by
              rw [Level.placed, level.sigils_of_close hclose]
              rfl
            constructor
            · rw [unfinished_append, h.unfinished, hplaced]
              exact opened.outer.dropWhile_placed rest
            · rw [takeWhile_reverse_append]
              rfl
          · cases hstep
      · cases hstep
  | sigil sigil =>
      obtain ⟨depth, -, hnext⟩ := bind_eq_ok.mp hstep
      cases hnext
      constructor
      · rw [unfinished_append, h.unfinished]
        rfl
      · rw [takeWhile_reverse_append, h.run]
        rfl
  | text raw =>
      obtain ⟨content, -, hnext⟩ := bind_eq_ok.mp hstep
      cases hnext
      exact h.push rfl rfl _
  | unterminated => cases hstep
  | atom chars =>
      cases hstep
      exact h.push rfl rfl _

theorem Reader.Holds.foldlM {reader final : Reader} {read more : List Placed}
    (h : reader.Holds read) (hfold : more.foldlM Reader.step reader = .ok final) :
    final.Holds (read ++ more) := by
  induction more generalizing reader read with
  | nil =>
      cases hfold
      rwa [List.append_nil]
  | cons placed more ih =>
      rw [List.foldlM_cons] at hfold
      obtain ⟨next, hstep, hrest⟩ := bind_eq_ok.mp hfold
      rw [List.append_cons]
      exact ih (h.step hstep) hrest

theorem holds_of_foldlM {read : List Placed} {reader : Reader}
    (h : read.foldlM Reader.step Reader.start = .ok reader) : reader.Holds read := by
  have hstart : Reader.start.Holds [] := ⟨rfl, rfl⟩
  exact hstart.foldlM h

theorem Reader.Holds.innermost {reader : Reader} {read : List Placed} (h : reader.Holds read) :
    innermost read =
      reader.around.head?.map fun opened => ⟨opened.offset, .opening opened.bracket⟩ := by
  have hnone : reader.level.placed.find? (fun one => !one.isSigil) = none := by
    rw [List.find?_eq_none]
    intro one hone
    simp [Level.isSigil_of_mem_placed one hone]
  rw [Form.innermost, h.unfinished, List.find?_append, hnone, Option.none_or]
  cases reader.around <;> rfl

theorem length_bracketsAround {depth : Nat} {around : List OpenBracket}
    (h : AroundSound depth around) : (bracketsAround around).length = depth := by
  induction around generalizing depth with
  | nil => exact h.symm
  | cons opened around ih =>
      obtain ⟨-, rfl, hrest⟩ := h
      rw [bracketsAround, List.flatMap_cons, List.length_append, ← bracketsAround, ih hrest]
      simp only [List.length_cons, Level.placed, List.length_map]
      omega

/-- The nesting where the reader stands is what is unfinished there. -/
theorem length_unfinished {source : List Char} {read : List Placed} {reader : Reader}
    (hsource : read <+: tokens source) (h : read.foldlM Reader.step Reader.start = .ok reader) :
    (unfinished read).length = reader.level.depth + reader.level.sigils.length ∧
      (unfinished read).length ≤ maxNesting := by
  have hsound := Reader.sound_start.foldlM (fun one ho => sound_of_mem_tokens (hsource.mem ho)) h
  have hlength : (unfinished read).length = reader.level.depth + reader.level.sigils.length := by
    rw [(holds_of_foldlM h).unfinished, List.length_append, length_bracketsAround hsound.around,
      Level.placed, List.length_map, Nat.add_comm]
  exact ⟨hlength, hlength ▸ hsound.level.sigils⟩

/-! ## How a step fails -/

theorem Level.nest_eq_error {level : Level} {offset : Nat} {fault : ReadFault} :
    level.nest offset = .error fault ↔
      maxNesting ≤ level.depth + level.sigils.length ∧
        fault = .nestedTooDeep maxNesting offset := by
  unfold Level.nest
  dsimp only
  split
  · next hle =>
      constructor
      · intro h
        cases h
      · rintro ⟨hge, -⟩
        omega
  · next hgt =>
      constructor
      · intro h
        cases h
        exact ⟨by omega, rfl⟩
      · rintro ⟨-, rfl⟩
        rfl

theorem Level.close_eq_error {level : Level} {fault : ReadFault} :
    level.close = .error fault ↔
      ∃ offset sigil, level.sigils.getLast? = some (offset, sigil) ∧
        fault = .danglingSigil offset := by
  unfold Level.close
  split
  · next offset sigil hlast =>
      constructor
      · intro h
        cases h
        exact ⟨offset, sigil, hlast, rfl⟩
      · rintro ⟨other, kind, hother, rfl⟩
        rw [hlast] at hother
        cases hother
        rfl
  · next hlast =>
      constructor
      · intro h
        cases h
      · rintro ⟨offset, sigil, hother, rfl⟩
        rw [hlast] at hother
        cases hother

/-- A level cannot be closed after a run of sigils, and the first of them is to
blame. The level keeps them latest first, so it is the last one there. -/
theorem Reader.Holds.close_eq_error {reader : Reader} {read : List Placed} (h : reader.Holds read)
    {fault : ReadFault} :
    reader.level.close = .error fault ↔
      ∃ front offset sigil run, read = front ++ ⟨offset, .sigil sigil⟩ :: run ∧
        (∀ last, front.getLast? = some last → last.isSigil = false) ∧
        (∀ one ∈ run, one.isSigil = true) ∧ fault = .danglingSigil offset := by
  rw [Level.close_eq_error]
  have hlast : reader.level.placed.getLast? =
      reader.level.sigils.getLast?.map fun sigil => ⟨sigil.1, .sigil sigil.2⟩ :=
    List.getLast?_map
  constructor
  · rintro ⟨offset, sigil, hsigils, rfl⟩
    rw [hsigils, ← List.head?_reverse, ← h.run] at hlast
    obtain ⟨run, hrun⟩ := List.head?_eq_some_iff.mp hlast
    refine ⟨(read.reverse.dropWhile Placed.isSigil).reverse, offset, sigil, run, ?_, ?_, ?_, rfl⟩
    · show read = _ ++ (⟨(offset, sigil).1, .sigil (offset, sigil).2⟩ :: run)
      rw [← hrun, ← List.reverse_append, List.takeWhile_append_dropWhile, List.reverse_reverse]
    · intro last hfront
      rw [List.getLast?_reverse] at hfront
      exact head?_dropWhile hfront
    · intro one hone
      have hmem : one ∈ (read.reverse.takeWhile Placed.isSigil).reverse := by
        rw [hrun]
        exact List.mem_cons_of_mem _ hone
      exact List.mem_takeWhile_imp (List.mem_reverse.mp hmem)
  · rintro ⟨front, offset, sigil, run, rfl, hfront, hrun, rfl⟩
    have hsigils : ∀ one ∈ (⟨offset, .sigil sigil⟩ :: run : List Placed).reverse,
        one.isSigil = true := by
      intro one hone
      rcases List.mem_cons.mp (List.mem_reverse.mp hone) with rfl | hone
      · rfl
      · exact hrun one hone
    have hnone : front.reverse.takeWhile Placed.isSigil = [] := by
      cases hreverse : front.reverse with
      | nil => rfl
      | cons last rest =>
          have hno := hfront last (by rw [← List.head?_reverse, hreverse]; rfl)
          rw [List.takeWhile_cons, hno]
          rfl
    rw [← h.run, List.reverse_append, List.takeWhile_append_of_pos hsigils, hnone, List.append_nil,
      List.getLast?_reverse] at hlast
    obtain ⟨⟨found, kind⟩, hfound, heq⟩ := Option.map_eq_some_iff.mp hlast.symm
    cases heq
    exact ⟨found, kind, hfound, rfl⟩

theorem escape?_eq_none {c : Char} :
    escape? c = none ↔ c ∉ ['"', '\\', 'n', 't'] := by
  unfold escape?
  split <;> simp_all

theorem byteLength_inside (before good : List Char) :
    byteLength (before ++ '"' :: good) = byteLength before + 1 + byteLength good := by
  rw [byteLength_append, byteLength, Nat.add_assoc]
  rfl

theorem unescape_of_unknown {good content : List Char} (h : Resolves good content) {escape : Char}
    (hescape : escape? escape = none) (offset : Nat) (more : List Char) :
    unescape offset (good ++ '\\' :: escape :: more) =
      .error (.unknownEscape escape (offset + byteLength good)) := by
  induction h generalizing offset with
  | nil =>
      rw [List.nil_append, unescape, hescape]
      rfl
  | @plain c raw content hslash _ ih =>
      rw [List.cons_append, unescape_plain hslash, ih, byteLength, Nat.add_assoc]
      rfl
  | quote _ ih | backslash _ ih | lineFeed _ ih | tab _ ih =>
      rw [List.cons_append, List.cons_append, unescape]
      dsimp only [escape?]
      rw [ih, byteLength, byteLength, Nat.add_assoc, Nat.add_assoc]
      rfl

/-- The fault of a string is the first backslash that begins none of the four
escapes. -/
theorem unescape_eq_error {offset : Nat} {raw : List Char} {fault : ReadFault} :
    unescape offset raw = .error fault ↔
      ∃ good content escape more, raw = good ++ '\\' :: escape :: more ∧ Resolves good content ∧
        escape? escape = none ∧ fault = .unknownEscape escape (offset + byteLength good) := by
  constructor
  · fun_induction unescape offset raw with
    | case1 | case2 =>
        intro h
        cases h
    | case3 offset c rest meant hescape ih =>
        intro h
        obtain ⟨good, content, escape, more, rfl, hgood, hunknown, rfl⟩ := ih (map_eq_error.mp h)
        refine ⟨_, _, escape, more, rfl, hgood.escape hescape, hunknown, ?_⟩
        rw [byteLength, byteLength, Nat.add_assoc, Nat.add_assoc]
        rfl
    | case4 offset c rest hescape =>
        intro h
        cases h
        exact ⟨[], [], c, rest, rfl, .nil, hescape, rfl⟩
    | case5 offset c rest hlone hpair ih =>
        intro h
        have hslash : c ≠ '\\' := by
          rintro rfl
          cases rest with
          | nil => exact hlone rfl rfl
          | cons d rest => exact hpair d rest rfl rfl
        obtain ⟨good, content, escape, more, rfl, hgood, hunknown, rfl⟩ := ih (map_eq_error.mp h)
        exact ⟨_, _, escape, more, rfl, hgood.plain hslash, hunknown, by
          rw [byteLength, Nat.add_assoc]⟩
  · rintro ⟨good, content, escape, more, rfl, hgood, hunknown, rfl⟩
    exact unescape_of_unknown hgood hunknown offset more

/-! ## The faults -/

/-- The tokens are read without a fault. -/
def Clean (read : List Placed) : Prop :=
  ∃ reader, read.foldlM Reader.step Reader.start = .ok reader

/-- What comes after these tokens is the close of the innermost open bracket or,
with no bracket open, the end. -/
def Ended (read later : List Placed) : Prop :=
  (∃ bracket opened offset more, innermost read = some ⟨opened, .opening bracket⟩ ∧
    later = ⟨offset, .closing bracket⟩ :: more) ∨
  innermost read = none ∧ later = []

/-- `Blames source fault`: the fault is one that the text has, and its byte is
where the text has it. -/
inductive Blames (source : List Char) : ReadFault → Prop
  /-- All before the bracket is read, and no bracket of its kind is the innermost
  open one. -/
  | unexpectedClose {before after : List Char} {bracket : Bracket}
      (stands : Stands source before (.closing bracket) after) (clean : Clean (tokens before))
      (other : ∀ opened, innermost (tokens before) ≠ some ⟨opened, .opening bracket⟩) :
      Blames source (.unexpectedClose bracket.closing (byteLength before))
  /-- The whole text is read, and the bracket is the innermost of those that are
  still open. -/
  | unclosed {before after : List Char} {bracket : Bracket}
      (stands : Stands source before (.opening bracket) after) (clean : Clean (tokens source))
      (inside : innermost (tokens source) = some ⟨byteLength before, .opening bracket⟩) :
      Blames source (.unclosed bracket.opening (byteLength before))
  /-- No quote after this one ends its string. -/
  | unterminatedText {before after : List Char}
      (stands : Stands source before .unterminated after) (clean : Clean (tokens before))
      (endless : Endless after) : Blames source (.unterminatedText (byteLength before))
  /-- The sigil is the first of a run of them, and after the run comes the close
  of the innermost open bracket or the end. -/
  | danglingSigil {before after : List Char} {sigil : Sigil} {run later : List Placed}
      (stands : Stands source before (.sigil sigil) after)
      (starts : ∀ last, (tokens before).getLast? = some last → last.isSigil = false)
      (sigils : ∀ one ∈ run, one.isSigil = true)
      (follows : tokens source =
        tokens before ++ ⟨byteLength before, .sigil sigil⟩ :: run ++ later)
      (clean : Clean (tokens before ++ ⟨byteLength before, .sigil sigil⟩ :: run))
      (ended : Ended (tokens before ++ ⟨byteLength before, .sigil sigil⟩ :: run) later) :
      Blames source (.danglingSigil (byteLength before))
  /-- In a string a backslash and a character are none of the four escapes, and
  there are only such escapes before them. -/
  | unknownEscape {before after good content more : List Char} {escape : Char}
      (stands : Stands source before (.text (good ++ '\\' :: escape :: more)) after)
      (clean : Clean (tokens before)) (resolves : Resolves good content)
      (unknown : escape ∉ ['"', '\\', 'n', 't']) :
      Blames source (.unknownEscape escape (byteLength (before ++ '"' :: good)))
  /-- As many brackets and sigils are unfinished as may be, and here is one more. -/
  | nestedTooDeep {before after : List Char} {token : Token}
      (stands : Stands source before token after) (clean : Clean (tokens before))
      (nests : (∃ bracket, token = .opening bracket) ∨ ∃ sigil, token = .sigil sigil)
      (full : (unfinished (tokens before)).length = maxNesting) :
      Blames source (.nestedTooDeep maxNesting (byteLength before))

/-! ## Every fault that is reported is to blame -/

theorem blames_of_close {source : List Char} {read later : List Placed} {reader : Reader}
    {fault : ReadFault} (hsource : tokens source = read ++ later)
    (hread : read.foldlM Reader.step Reader.start = .ok reader) (hended : Ended read later)
    (hclose : reader.level.close = .error fault) : Blames source fault := by
  obtain ⟨front, offset, sigil, run, rfl, hstarts, hrun, rfl⟩ :=
    (holds_of_foldlM hread).close_eq_error.mp hclose
  have hfront : tokens source = front ++ ⟨offset, .sigil sigil⟩ :: (run ++ later) := by
    rw [hsource, List.append_assoc, List.cons_append]
  obtain ⟨before, after, rfl, hfirst, hstands, -⟩ := exists_stands hfront
  obtain ⟨rfl, -⟩ := Placed.mk.inj hfirst
  exact .danglingSigil hstands hstarts hrun hsource ⟨reader, hread⟩ hended

theorem blames_of_nest {source before after : List Char} {token : Token} {reader : Reader}
    {fault : ReadFault} (hstands : Stands source before token after)
    (hread : (tokens before).foldlM Reader.step Reader.start = .ok reader)
    (hnests : (∃ bracket, token = .opening bracket) ∨ ∃ sigil, token = .sigil sigil)
    (hnest : reader.level.nest (byteLength before) = .error fault) : Blames source fault := by
  obtain ⟨hge, rfl⟩ := Level.nest_eq_error.mp hnest
  have hbefore : tokens before <+: tokens source := (List.prefix_append _ _).trans hstands.cut
  obtain ⟨hlength, hle⟩ := length_unfinished hbefore hread
  exact .nestedTooDeep hstands ⟨reader, hread⟩ hnests (by omega)

theorem blames_of_closing {source before after : List Char} {bracket : Bracket}
    {later : List Placed} {reader : Reader} {fault : ReadFault}
    (hsource : tokens source = tokens before ++ ⟨byteLength before, .closing bracket⟩ :: later)
    (hstands : Stands source before (.closing bracket) after)
    (hread : (tokens before).foldlM Reader.step Reader.start = .ok reader)
    (hstep : reader.step ⟨byteLength before, .closing bracket⟩ = .error fault) :
    Blames source fault := by
  have hinside := (holds_of_foldlM hread).innermost
  obtain ⟨level, around⟩ := reader
  cases around with
  | nil =>
      cases hstep
      refine .unexpectedClose hstands ⟨_, hread⟩ fun opened hopened => ?_
      rw [hinside] at hopened
      cases hopened
  | cons opened around =>
      simp only [Reader.step] at hstep
      split at hstep
      · next hkind =>
          rcases bind_eq_error.mp hstep with hclose | ⟨items, -, hnext⟩
          · have hended : Ended (tokens before) (⟨byteLength before, .closing bracket⟩ :: later) :=
              .inl ⟨bracket, opened.offset, _, later, hkind ▸ hinside, rfl⟩
            exact blames_of_close hsource hread hended hclose
          · cases hnext
      · next hkind =>
          cases hstep
          refine .unexpectedClose hstands ⟨_, hread⟩ fun other hother => ?_
          rw [hinside] at hother
          cases hother
          exact hkind rfl

theorem blames_of_step {source : List Char} {read later : List Placed} {placed : Placed}
    {reader : Reader} {fault : ReadFault} (hsource : tokens source = read ++ placed :: later)
    (hread : read.foldlM Reader.step Reader.start = .ok reader)
    (hstep : reader.step placed = .error fault) : Blames source fault := by
  obtain ⟨before, after, rfl, hplaced, hstands, hendless⟩ := exists_stands hsource
  obtain ⟨offset, token⟩ := placed
  obtain ⟨rfl, -⟩ := Placed.mk.inj hplaced
  cases token with
  | opening bracket =>
      rcases bind_eq_error.mp hstep with hnest | ⟨depth, -, hnext⟩
      · exact blames_of_nest hstands hread (.inl ⟨bracket, rfl⟩) hnest
      · cases hnext
  | closing bracket => exact blames_of_closing hsource hstands hread hstep
  | sigil sigil =>
      rcases bind_eq_error.mp hstep with hnest | ⟨depth, -, hnext⟩
      · exact blames_of_nest hstands hread (.inr ⟨sigil, rfl⟩) hnest
      · cases hnext
  | text raw =>
      rcases bind_eq_error.mp hstep with hescape | ⟨content, -, hnext⟩
      · obtain ⟨good, content, escape, more, rfl, hgood, hunknown, rfl⟩ :=
          unescape_eq_error.mp hescape
        rw [← byteLength_inside]
        exact .unknownEscape hstands ⟨reader, hread⟩ hgood (escape?_eq_none.mp hunknown)
      · cases hnext
  | unterminated =>
      cases hstep
      exact .unterminatedText hstands ⟨reader, hread⟩ (hendless rfl)
  | atom chars => cases hstep

theorem blames_of_finish {source : List Char} {reader : Reader} {fault : ReadFault}
    (hread : (tokens source).foldlM Reader.step Reader.start = .ok reader)
    (hfinish : reader.finish = .error fault) : Blames source fault := by
  have hinside := (holds_of_foldlM hread).innermost
  obtain ⟨level, around⟩ := reader
  cases around with
  | nil => exact blames_of_close (List.append_nil _).symm hread (.inr ⟨hinside, rfl⟩) hfinish
  | cons opened around =>
      cases hfinish
      obtain ⟨bracket, offset, outer⟩ := opened
      have hmem : (⟨offset, .opening bracket⟩ : Placed) ∈ tokens source :=
        mem_of_mem_unfinished (List.mem_of_find?_eq_some hinside)
      obtain ⟨done, later, hsource⟩ := List.append_of_mem hmem
      obtain ⟨before, after, -, hplaced, hstands, -⟩ := exists_stands hsource
      obtain ⟨rfl, -⟩ := Placed.mk.inj hplaced
      exact .unclosed hstands ⟨_, hread⟩ hinside

/-! ## Every fault that is to blame is reported -/

theorem readChars_of_step {source : List Char} {read : List Placed} {placed : Placed}
    {reader : Reader} {fault : ReadFault} (hsource : read ++ [placed] <+: tokens source)
    (hread : read.foldlM Reader.step Reader.start = .ok reader)
    (hstep : reader.step placed = .error fault) : readChars source = .error fault := by
  obtain ⟨later, hlater⟩ := hsource
  rw [← List.append_cons] at hlater
  refine bind_eq_error.mpr (.inl ?_)
  exact foldlM_eq_error.mpr ⟨read, placed, later, reader, hlater.symm, hread, hstep⟩

theorem readChars_of_close {source : List Char} {read later : List Placed} {reader : Reader}
    {fault : ReadFault} (hsource : tokens source = read ++ later)
    (hread : read.foldlM Reader.step Reader.start = .ok reader) (hended : Ended read later)
    (hclose : reader.level.close = .error fault) : readChars source = .error fault := by
  rw [Ended, (holds_of_foldlM hread).innermost] at hended
  obtain ⟨level, around⟩ := reader
  rcases hended with ⟨bracket, opened, offset, more, hinside, rfl⟩ | ⟨hinside, rfl⟩
  · cases around with
    | nil => cases hinside
    | cons first around =>
        cases hinside
        have hstep : Reader.step ⟨level, first :: around⟩ ⟨offset, .closing first.bracket⟩ =
            .error fault := by
          simp only [Reader.step, if_true]
          exact bind_eq_error.mpr (.inl hclose)
        exact readChars_of_step ⟨more, by rw [hsource, ← List.append_cons]⟩ hread hstep
  · cases around with
    | nil =>
        rw [List.append_nil] at hsource
        exact bind_eq_error.mpr (.inr ⟨⟨level, []⟩, by rw [hsource]; exact hread, hclose⟩)
    | cons first around => cases hinside

theorem readChars_of_blames {source : List Char} {fault : ReadFault} (h : Blames source fault) :
    readChars source = .error fault := by
  cases h with
  | @unexpectedClose before after bracket hstands hclean hother =>
      obtain ⟨reader, hread⟩ := hclean
      have hinside := (holds_of_foldlM hread).innermost
      refine readChars_of_step hstands.cut hread ?_
      obtain ⟨level, around⟩ := reader
      cases around with
      | nil => rfl
      | cons opened around =>
          have hkind : opened.bracket ≠ bracket := by
            rintro rfl
            exact hother _ hinside
          simp only [Reader.step, hkind, if_false]
  | @unclosed before after bracket _ hclean hinside =>
      obtain ⟨reader, hread⟩ := hclean
      refine bind_eq_error.mpr (.inr ⟨reader, hread, ?_⟩)
      obtain ⟨level, around⟩ := reader
      rw [(holds_of_foldlM hread).innermost] at hinside
      cases around with
      | nil => cases hinside
      | cons opened around =>
          obtain ⟨kind, offset, outer⟩ := opened
          cases hinside
          rfl
  | unterminatedText hstands hclean =>
      obtain ⟨reader, hread⟩ := hclean
      exact readChars_of_step hstands.cut hread rfl
  | @danglingSigil before after sigil run later _ hstarts hsigils hfollows hclean hended =>
      obtain ⟨reader, hread⟩ := hclean
      have hclose := (holds_of_foldlM hread).close_eq_error.mpr
        ⟨tokens before, byteLength before, sigil, run, rfl, hstarts, hsigils, rfl⟩
      exact readChars_of_close hfollows hread hended hclose
  | @unknownEscape before after good content more escape hstands hclean hgood hunknown =>
      obtain ⟨reader, hread⟩ := hclean
      refine readChars_of_step hstands.cut hread (bind_eq_error.mpr (.inl ?_))
      rw [byteLength_inside]
      exact unescape_eq_error.mpr
        ⟨good, content, escape, more, rfl, hgood, escape?_eq_none.mpr hunknown, rfl⟩
  | @nestedTooDeep before after token hstands hclean hnests hfull =>
      obtain ⟨reader, hread⟩ := hclean
      have hbefore : tokens before <+: tokens source := (List.prefix_append _ _).trans hstands.cut
      obtain ⟨hlength, -⟩ := length_unfinished hbefore hread
      have hnest : reader.level.nest (byteLength before) =
          .error (.nestedTooDeep maxNesting (byteLength before)) :=
        Level.nest_eq_error.mpr ⟨by omega, rfl⟩
      refine readChars_of_step hstands.cut hread ?_
      rcases hnests with ⟨bracket, rfl⟩ | ⟨sigil, rfl⟩
      · exact bind_eq_error.mpr (.inl hnest)
      · exact bind_eq_error.mpr (.inl hnest)

theorem readChars_eq_error_iff {source : List Char} {fault : ReadFault} :
    readChars source = .error fault ↔ Blames source fault := by
  constructor
  · intro h
    rcases bind_eq_error.mp h with hfold | ⟨reader, hread, hfinish⟩
    · obtain ⟨read, placed, later, reader, hsource, hread, hstep⟩ := foldlM_eq_error.mp hfold
      exact blames_of_step hsource hread hstep
    · exact blames_of_finish hread hfinish
  · exact readChars_of_blames

/-! ## The byte -/

/-- Where a text is cut before a character, its byte is a boundary inside it. -/
theorem isValid_byteLength {source : String} {before after : List Char} {c : Char}
    (h : source.toList = before ++ c :: after) :
    byteLength before < source.utf8ByteSize ∧
      String.Pos.Raw.IsValid source ⟨byteLength before⟩ := by
  have hbefore : byteLength before = (String.ofList before).utf8ByteSize := by
    rw [← byteLength_toList, String.toList_ofList]
  constructor
  · rw [← byteLength_toList, h, byteLength_append, byteLength]
    have := c.utf8Size_pos
    omega
  · refine String.Pos.Raw.isValid_iff_exists_append.mpr
      ⟨String.ofList before, String.ofList (c :: after), ?_, ?_⟩
    · rw [← String.ofList_append, ← h, String.ofList_toList]
    · rw [hbefore]
      rfl

theorem Stands.place {source before after : List Char} {token : Token}
    (h : Stands source before token after) (hatom : ∀ chars, token ≠ .atom chars) :
    ∃ c rest, source = before ++ c :: rest := by
  obtain ⟨c, rest, hchars⟩ : ∃ c rest, token.chars = c :: rest := by
    cases token with
    | sigil sigil => cases sigil <;> exact ⟨_, _, rfl⟩
    | opening | closing | text | unterminated => exact ⟨_, _, rfl⟩
    | atom chars => exact absurd rfl (hatom chars)
  exact ⟨c, rest ++ after, by rw [h.whole, hchars, List.append_assoc, List.cons_append]⟩

theorem Blames.place {source : List Char} {fault : ReadFault} (h : Blames source fault) :
    ∃ before c rest, source = before ++ c :: rest ∧ fault.place? = some (byteLength before) := by
  cases h with
  | @unknownEscape before after good content more escape hstands =>
      refine ⟨before ++ '"' :: good, '\\', escape :: more ++ '"' :: after, ?_, rfl⟩
      exact hstands.whole.trans (by simp [Token.chars])
  | @nestedTooDeep before after token hstands _ hnests =>
      have hatom : ∀ chars, token ≠ .atom chars := by
        rcases hnests with ⟨_, rfl⟩ | ⟨_, rfl⟩ <;> nofun
      obtain ⟨c, rest, hsource⟩ := hstands.place hatom
      exact ⟨_, c, rest, hsource, rfl⟩
  | unexpectedClose hstands | unclosed hstands | unterminatedText hstands | danglingSigil hstands =>
      obtain ⟨c, rest, hsource⟩ := hstands.place nofun
      exact ⟨_, c, rest, hsource, rfl⟩

/-- A text can always be cut into tokens, and when it cannot be read, the fault
is the one that the text has. Its byte lies inside the text, where a character
starts. -/
theorem read_eq_error_iff_blames (source : String) :
    (∃ spelt, Lexes source.toList spelt) ∧
    ∀ fault, (read source = .error fault ↔ Blames source.toList fault) ∧
      (read source = .error fault → ∃ place, fault.place? = some place ∧
        place < source.utf8ByteSize ∧ String.Pos.Raw.IsValid source ⟨place⟩) := by
  refine ⟨exists_lexes source.toList, fun fault => ⟨readChars_eq_error_iff, fun h => ?_⟩⟩
  obtain ⟨before, c, after, hsource, hplace⟩ := (readChars_eq_error_iff.mp h).place
  exact ⟨byteLength before, hplace, isValid_byteLength hsource⟩

/-- Of two sigils that wait when their list is closed the first is to blame, and
bytes are counted, not characters. -/
theorem read_eq_error_iff_blames_of_sigils :
    Blames "é(λ ' #' ; x\n)".toList (.danglingSigil 6) ∧
    6 < "é(λ ' #' ; x\n)".utf8ByteSize ∧
    String.Pos.Raw.IsValid "é(λ ' #' ; x\n)" ⟨6⟩ := by
  have hread : read "é(λ ' #' ; x\n)" = .error (.danglingSigil 6) := by rfl
  have hfault := (read_eq_error_iff_blames "é(λ ' #' ; x\n)").2 (.danglingSigil 6)
  obtain ⟨place, hplace, hinside⟩ := hfault.2 hread
  cases hplace
  exact ⟨hfault.1.mp hread, hinside⟩

end Form

end Rulebook
