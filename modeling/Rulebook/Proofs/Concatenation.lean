import Rulebook.Proofs.Grammar

/-!
# Reading one text after another

A text that can be read leaves nothing open: no string, no bracket and no sigil.
A newline after it ends a comment and an atom, and so whatever follows is read
as if it stood alone, only further along. The forms of the two texts are then
the forms of the first and the forms of the second, and a fault in the second is
the fault it has by itself, at its place in the whole.

Both folds are followed through the second text with the first one behind them.
The scanner has the tokens of the first text behind those it finds, and the
reader has the forms of the first at the bottom of its outermost level. No step
looks at either.

A text that cannot be read may be the beginning of one that can: its last
bracket may yet be closed. Three faults are past mending. They lie in a token
that the scanner has finished, and what is finished stays the same whatever
comes after it.
-/

namespace Rulebook

/-- The fault, found in a text that starts some bytes further along. -/
def ReadFault.moved (distance : Nat) : ReadFault → ReadFault
  | .unexpectedClose found offset => .unexpectedClose found (offset + distance)
  | .unclosed bracket offset => .unclosed bracket (offset + distance)
  | .unterminatedText offset => .unterminatedText (offset + distance)
  | .danglingSigil offset => .danglingSigil (offset + distance)
  | .unknownEscape escape offset => .unknownEscape escape (offset + distance)
  | .nestedTooDeep limit offset => .nestedTooDeep limit (offset + distance)
  | .notOneForm found => .notOneForm found

/-- The faults of a token that is complete where it stands. -/
def ReadFault.IsFinal : ReadFault → Prop
  | .unexpectedClose _ _ => True
  | .unknownEscape _ _ => True
  | .nestedTooDeep _ _ => True
  | _ => False

namespace Form

/-! ## The scanner -/

/-- The token, some bytes further along. -/
def Placed.moved (distance : Nat) (placed : Placed) : Placed :=
  { placed with offset := placed.offset + distance }

def Pending.moved (distance : Nat) : Pending → Pending
  | .nothing => .nothing
  | .comment => .comment
  | .hash start => .hash (start + distance)
  | .atom start chars => .atom (start + distance) chars
  | .text start escaped chars => .text (start + distance) escaped chars

namespace Scanner

/-- The scanner where a text of `distance` bytes with the tokens `before` comes
first. -/
def behind (distance : Nat) (before : Array Placed) (scanner : Scanner) : Scanner :=
  ⟨scanner.offset + distance, scanner.pending.moved distance,
    before ++ scanner.tokens.map (Placed.moved distance)⟩

variable {distance : Nat} {before : Array Placed}

theorem behind_emit (scanner : Scanner) (offset : Nat) (token : Token) :
    (scanner.behind distance before).emit (offset + distance) token =
      (scanner.emit offset token).behind distance before := by
  simp [behind, emit, Placed.moved]

theorem behind_begin (scanner : Scanner) (c : Char) :
    (scanner.behind distance before).begin c = (scanner.begin c).behind distance before := by
  unfold Scanner.begin
  dsimp only
  split
  case h_9 => split <;> rfl
  case h_6 | h_7 | h_8 => rfl
  all_goals exact behind_emit { scanner with pending := .nothing } scanner.offset _

theorem behind_extendAtom (scanner : Scanner) (first : Nat) (chars : List Char) (c : Char) :
    (scanner.behind distance before).extendAtom (first + distance) chars c =
      (scanner.extendAtom first chars c).behind distance before := by
  unfold extendAtom
  split
  · rfl
  · rw [behind_emit, behind_begin]

theorem behind_take (scanner : Scanner) (c : Char) :
    (scanner.behind distance before).take c = (scanner.take c).behind distance before := by
  obtain ⟨offset, pending, tokens⟩ := scanner
  cases pending with
  | nothing => exact behind_begin _ c
  | comment =>
      by_cases hc : c = '\n' <;> simp [take, behind, Pending.moved, hc]
  | hash first =>
      by_cases hc : c = '\''
      · simp only [take, behind, Pending.moved, hc, if_true]
        exact behind_emit ⟨offset, .nothing, tokens⟩ first _
      · have htake : take ⟨offset, .hash first, tokens⟩ c =
            extendAtom ⟨offset, .hash first, tokens⟩ first ['#'] c := by
          simp only [take, hc, if_false]
        rw [htake, ← behind_extendAtom]
        simp only [take, behind, Pending.moved, hc, if_false]
  | atom first chars => exact behind_extendAtom _ first chars c
  | text first escaped chars =>
      cases escaped with
      | true => rfl
      | false =>
          by_cases hc : c = '"'
          · simp only [take, behind, Pending.moved, hc, if_true]
            exact behind_emit ⟨offset, .nothing, tokens⟩ first _
          · simp [take, behind, Pending.moved, hc]

theorem behind_step (scanner : Scanner) (c : Char) :
    (scanner.behind distance before).step c = (scanner.step c).behind distance before := by
  have hoffset : scanner.offset + distance + c.utf8Size =
      scanner.offset + c.utf8Size + distance := by
    omega
  unfold step
  rw [behind_take]
  simp only [behind, hoffset]

theorem behind_scan (scanner : Scanner) (source : List Char) :
    (scanner.behind distance before).scan source =
      (scanner.scan source).behind distance before := by
  induction source generalizing scanner with
  | nil => rfl
  | cons c source ih => rw [scan_cons, scan_cons, behind_step, ih]

theorem behind_finish (scanner : Scanner) :
    (scanner.behind distance before).finish =
      before ++ scanner.finish.map (Placed.moved distance) := by
  obtain ⟨offset, pending, tokens⟩ := scanner
  cases pending with
  | nothing => rfl
  | comment => rfl
  | hash first => exact congrArg Scanner.tokens (behind_emit _ first _)
  | atom first chars => exact congrArg Scanner.tokens (behind_emit _ first _)
  | text first escaped chars => exact congrArg Scanner.tokens (behind_emit _ first _)

/-- A newline ends everything but a string. -/
theorem take_newline {scanner : Scanner}
    (h : ∀ first escaped chars, scanner.pending ≠ .text first escaped chars) :
    scanner.take '\n' = { scanner with pending := .nothing, tokens := scanner.finish } := by
  obtain ⟨offset, pending, tokens⟩ := scanner
  cases pending with
  | text first escaped chars => exact absurd rfl (h first escaped chars)
  | nothing | comment | hash | atom => rfl

theorem step_newline {scanner : Scanner}
    (h : ∀ first escaped chars, scanner.pending ≠ .text first escaped chars) :
    scanner.step '\n' = start.behind (scanner.offset + 1) scanner.finish := by
  have hsize : '\n'.utf8Size = 1 := rfl
  rw [step, take_newline h, hsize]
  simp [behind, start, Pending.moved]

end Scanner

/-- The number of bytes of a text. -/
def byteLength : List Char → Nat
  | [] => 0
  | c :: source => c.utf8Size + byteLength source

theorem Scanner.offset_scan (scanner : Scanner) (source : List Char) :
    (scanner.scan source).offset = scanner.offset + byteLength source := by
  induction source generalizing scanner with
  | nil => rfl
  | cons c source ih =>
      rw [scan_cons, ih]
      show scanner.offset + c.utf8Size + byteLength source = _
      rw [byteLength, Nat.add_assoc]

theorem tokens_append_newline {source : List Char}
    (h : Token.unterminated ∉ (tokens source).map Placed.token) (rest : List Char) :
    tokens (source ++ '\n' :: rest) =
      tokens source ++ (tokens rest).map (Placed.moved (byteLength source + 1)) := by
  have hpending : ∀ first escaped chars,
      (Scanner.start.scan source).pending ≠ .text first escaped chars := by
    intro first escaped chars hp
    refine h (List.mem_map.mpr ⟨⟨first, .unterminated⟩, ?_, rfl⟩)
    show _ ∈ (Scanner.finish (Scanner.start.scan source)).toList
    simp [Scanner.finish, hp, Scanner.emit]
  have hoffset : (Scanner.start.scan source).offset = byteLength source := by
    rw [Scanner.offset_scan]
    exact Nat.zero_add _
  show ((Scanner.start.scan (source ++ '\n' :: rest)).finish).toList = _
  rw [← hoffset, Scanner.scan_append, Scanner.scan_cons, Scanner.step_newline hpending,
    Scanner.behind_scan, Scanner.behind_finish, Array.toList_append, Array.toList_map]
  rfl

/-! ## The reader -/

/-- The level, with its sigils some bytes further along and `items` of another
text below its own. -/
def Level.behind (distance : Nat) (items : List Form) (level : Level) : Level :=
  ⟨level.depth, level.items ++ items,
    level.sigils.map fun sigil => (sigil.1 + distance, sigil.2)⟩

/-- A level and the open brackets around it, with `items` of another text below
those of the outermost level. -/
def Level.within (distance : Nat) (items : List Form) (level : Level) : List OpenBracket → Reader
  | [] => ⟨level.behind distance items, []⟩
  | opened :: around =>
    let outside := opened.outer.within distance items around
    ⟨level.behind distance [],
      ⟨opened.bracket, opened.offset + distance, outside.level⟩ :: outside.around⟩

/-- The reader where another text with `items` comes first. -/
def Reader.behind (distance : Nat) (items : List Form) (reader : Reader) : Reader :=
  reader.level.within distance items reader.around

section Reader

variable {distance : Nat} {items : List Form}

theorem Level.nest_behind (level : Level) (offset : Nat) :
    (level.behind distance items).nest (offset + distance) =
      (level.nest offset).mapError (ReadFault.moved distance) := by
  simp only [Level.nest, Level.behind, List.length_map]
  split <;> rfl

theorem Level.close_behind (level : Level) :
    (level.behind distance items).close =
      (level.close.map (items.reverse ++ ·)).mapError (ReadFault.moved distance) := by
  simp only [Level.close, Level.behind, List.getLast?_map, List.reverse_append]
  cases level.sigils.getLast? <;> rfl

theorem Level.push_behind (level : Level) (form : Form) :
    (level.behind distance items).push form = (level.push form).behind distance items := by
  simp [Level.push, Level.behind, List.foldl_map]

theorem Level.within_push (level : Level) (around : List OpenBracket) (form : Form) :
    (level.push form).within distance items around =
      (level.within distance items around).push form := by
  cases around with
  | nil => simp only [Level.within, Reader.push, Level.push_behind]
  | cons opened around => simp only [Level.within, Reader.push, Level.push_behind]

theorem Level.within_nest (level : Level) (around : List OpenBracket) (offset : Nat) :
    (level.within distance items around).level.nest (offset + distance) =
      (level.nest offset).mapError (ReadFault.moved distance) := by
  cases around <;> exact level.nest_behind offset

theorem unescape_add (offset : Nat) (raw : List Char) :
    unescape (offset + distance) raw =
      (unescape offset raw).mapError (ReadFault.moved distance) := by
  fun_induction unescape offset raw with
  | case1 => rfl
  | case2 => rfl
  | case3 offset c rest meant hescape ih =>
      have hoffset : offset + distance + 1 + c.utf8Size =
          offset + 1 + c.utf8Size + distance := by omega
      rw [unescape, hescape]
      dsimp only
      rw [hoffset, ih]
      cases unescape (offset + 1 + c.utf8Size) rest <;> rfl
  | case4 offset c rest hescape =>
      rw [unescape, hescape]
      rfl
  | case5 offset c rest hlone hpair ih =>
      rw [unescape, Nat.add_right_comm, ih]
      · cases unescape (offset + c.utf8Size) rest <;> rfl
      · exact hlone
      · exact hpair

/-- Another text that comes first does not show in what the reader does with a
token. -/
theorem Reader.step_behind (reader : Reader) (placed : Placed) :
    (reader.behind distance items).step (placed.moved distance) =
      ((reader.step placed).map (Reader.behind distance items)).mapError
        (ReadFault.moved distance) := by
  obtain ⟨level, around⟩ := reader
  obtain ⟨offset, token⟩ := placed
  cases token with
  | opening bracket =>
      simp only [Reader.step, Reader.behind, Placed.moved, Level.within_nest]
      cases level.nest offset <;> rfl
  | closing bracket =>
      cases around with
      | nil => rfl
      | cons opened around =>
          simp only [Reader.step, Reader.behind, Placed.moved, Level.within, Level.close_behind]
          split
          · cases level.close with
            | error fault => rfl
            | ok closed =>
                exact congrArg Except.ok (opened.outer.within_push around _).symm
          · rfl
  | sigil sigil =>
      simp only [Reader.step, Reader.behind, Placed.moved, Level.within_nest]
      cases level.nest offset with
      | error fault => rfl
      | ok depth => cases around <;> rfl
  | text raw =>
      have hinside : unescape (offset + distance + 1) raw =
          (unescape (offset + 1) raw).mapError (ReadFault.moved distance) := by
        rw [Nat.add_right_comm, unescape_add]
      simp only [Reader.step, Reader.behind, Placed.moved, hinside]
      cases unescape (offset + 1) raw with
      | error fault => rfl
      | ok content => exact congrArg Except.ok (level.within_push around _).symm
  | unterminated => rfl
  | atom chars => exact congrArg Except.ok (level.within_push around (ofAtom chars)).symm

theorem Reader.foldlM_behind (reader : Reader) (placed : List Placed) :
    (placed.map (Placed.moved distance)).foldlM Reader.step (reader.behind distance items) =
      ((placed.foldlM Reader.step reader).map (Reader.behind distance items)).mapError
        (ReadFault.moved distance) := by
  induction placed generalizing reader with
  | nil => rfl
  | cons first rest ih =>
      rw [List.map_cons, List.foldlM_cons, List.foldlM_cons, Reader.step_behind]
      cases reader.step first with
      | error fault => rfl
      | ok next => exact ih next

theorem Reader.finish_behind (reader : Reader) :
    (reader.behind distance items).finish =
      (reader.finish.map (items.reverse ++ ·)).mapError (ReadFault.moved distance) := by
  obtain ⟨level, around⟩ := reader
  cases around with
  | nil => exact level.close_behind
  | cons opened around => rfl

end Reader

/-! ## Two texts -/

/-- Where a text that can be read leaves the reader: at the top, with nothing
open. -/
theorem foldlM_of_readChars {source : List Char} {forms : List Form}
    (h : readChars source = .ok forms) :
    (tokens source).foldlM Reader.step Reader.start = .ok ⟨⟨0, forms.reverse, []⟩, []⟩ := by
  obtain ⟨reader, hfold, hfinish⟩ := bind_eq_ok.mp h
  have hsound := Reader.sound_start.foldlM (fun one ho => sound_of_mem_tokens ho) hfold
  obtain ⟨⟨depth, items, sigils⟩, around⟩ := reader
  cases around with
  | cons opened around => cases hfinish
  | nil =>
      have hdepth : depth = 0 := hsound.around
      have hsigils : sigils = [] := Level.sigils_of_close hfinish
      have hforms : forms = items.reverse := Level.close_eq_ok hfinish
      rw [hfold, hforms, hdepth, hsigils, List.reverse_reverse]

/-- What follows a text that can be read, on a new line, is read as if it stood
alone, and the forms of the text come first. -/
theorem readChars_append_newline {source : List Char} {forms : List Form}
    (h : readChars source = .ok forms) (rest : List Char) :
    readChars (source ++ '\n' :: rest) =
      ((readChars rest).map (forms ++ ·)).mapError (ReadFault.moved (byteLength source + 1)) := by
  have hproper := (derives_of_readChars h).proper
  have hterminated : Token.unterminated ∉ (tokens source).map Placed.token :=
    fun hmem => hproper _ hmem
  have hstart : (⟨⟨0, forms.reverse, []⟩, []⟩ : Reader) =
      Reader.start.behind (byteLength source + 1) forms.reverse := rfl
  rw [readChars, tokens_append_newline hterminated, List.foldlM_append, foldlM_of_readChars h,
    hstart]
  show (((tokens rest).map _).foldlM Reader.step (Reader.start.behind _ _) >>= Reader.finish) = _
  rw [Reader.foldlM_behind, readChars]
  cases (tokens rest).foldlM Reader.step Reader.start with
  | error fault => rfl
  | ok reader =>
      show (reader.behind _ _).finish = _
      rw [Reader.finish_behind, List.reverse_reverse]
      rfl

theorem byteLength_toList (source : String) : byteLength source.toList = source.utf8ByteSize := by
  have hchars : ∀ chars : List Char, byteLength chars = (String.ofList chars).utf8ByteSize := by
    intro chars
    induction chars with
    | nil => rfl
    | cons c chars ih =>
        rw [byteLength, ih, String.ofList_cons, String.utf8ByteSize_append,
          String.utf8ByteSize_singleton]
  rw [hchars, String.ofList_toList]

/-! ## Faults that no further text mends -/

namespace Scanner

theorem prefix_begin (scanner : Scanner) (c : Char) :
    scanner.tokens.toList <+: (scanner.begin c).tokens.toList := by
  unfold Scanner.begin
  dsimp only
  split
  case h_9 => split <;> exact List.prefix_refl _
  case h_6 | h_7 | h_8 => exact List.prefix_refl _
  all_goals simp [emit]

theorem prefix_extendAtom (scanner : Scanner) (first : Nat) (chars : List Char) (c : Char) :
    scanner.tokens.toList <+: (scanner.extendAtom first chars c).tokens.toList := by
  unfold extendAtom
  split
  · exact List.prefix_refl _
  · refine List.IsPrefix.trans ?_ (prefix_begin _ c)
    simp [emit]

theorem prefix_step (scanner : Scanner) (c : Char) :
    scanner.tokens.toList <+: (scanner.step c).tokens.toList := by
  show _ <+: (scanner.take c).tokens.toList
  unfold take
  split
  · exact prefix_begin scanner c
  · split <;> exact List.prefix_refl _
  · split
    · simp [emit]
    · exact prefix_extendAtom scanner _ _ c
  · exact prefix_extendAtom scanner _ _ c
  · exact List.prefix_refl _
  · split
    · simp [emit]
    · exact List.prefix_refl _

/-- What the scanner has finished stays, whatever comes. -/
theorem prefix_scan (scanner : Scanner) (more : List Char) :
    scanner.tokens.toList <+: (scanner.scan more).tokens.toList := by
  induction more generalizing scanner with
  | nil => exact List.prefix_refl _
  | cons c more ih => exact (prefix_step scanner c).trans (ih (scanner.step c))

/-- All that the end of a text adds is an atom or a string that never ends. -/
theorem finish_cases (scanner : Scanner) :
    scanner.finish.toList = scanner.tokens.toList ∨
      ∃ first token, scanner.finish.toList = scanner.tokens.toList ++ [⟨first, token⟩] ∧
        (token = .unterminated ∨ ∃ chars, token = .atom chars) := by
  unfold finish
  split
  · exact .inl rfl
  · exact .inl rfl
  · next first _ => exact .inr ⟨first, _, Array.toList_push, .inr ⟨_, rfl⟩⟩
  · next first chars _ => exact .inr ⟨first, _, Array.toList_push, .inr ⟨_, rfl⟩⟩
  · next first _ _ _ => exact .inr ⟨first, _, Array.toList_push, .inl rfl⟩

end Scanner

theorem foldlM_append_of_error {first more : List Placed} {reader : Reader} {fault : ReadFault}
    (h : first.foldlM Reader.step reader = .error fault) :
    (first ++ more).foldlM Reader.step reader = .error fault := by
  rw [List.foldlM_append, h]
  rfl

theorem Reader.not_final_of_finish {reader : Reader} {fault : ReadFault}
    (h : reader.finish = .error fault) : ¬ fault.IsFinal := by
  unfold Reader.finish at h
  split at h
  · cases h
    exact id
  · unfold Level.close at h
    split at h
    · cases h
      exact id
    · cases h

/-- A final fault lies in the tokens that the scanner has finished. What it is in
the middle of at the end is an atom or a string without an end, and reading
these gives no final fault. -/
theorem foldlM_finished_of_final {source : List Char} {fault : ReadFault}
    (h : readChars source = .error fault) (hfinal : fault.IsFinal) :
    (Scanner.start.scan source).tokens.toList.foldlM Reader.step Reader.start = .error fault := by
  have hfold : (tokens source).foldlM Reader.step Reader.start = .error fault := by
    rcases bind_eq_error.mp h with hfold | ⟨reader, -, hfinish⟩
    · exact hfold
    · exact absurd hfinal (Reader.not_final_of_finish hfinish)
  change (Scanner.start.scan source).finish.toList.foldlM Reader.step Reader.start = _ at hfold
  rcases (Scanner.start.scan source).finish_cases with hsame | ⟨first, token, hlast, htoken⟩
  · rwa [hsame] at hfold
  · rw [hlast, List.foldlM_append] at hfold
    rcases bind_eq_error.mp hfold with hread | ⟨reader, -, hstep⟩
    · exact hread
    · rcases htoken with rfl | ⟨chars, rfl⟩
      · cases hstep
        exact absurd hfinal id
      · cases hstep

theorem readChars_append_of_final {source : List Char} {fault : ReadFault}
    (h : readChars source = .error fault) (hfinal : fault.IsFinal) (more : List Char) :
    readChars (source ++ more) = .error fault := by
  obtain ⟨later, hlater⟩ := (Scanner.start.scan source).prefix_scan more
  have htokens : ∃ rest, tokens (source ++ more) =
      (Scanner.start.scan source).tokens.toList ++ rest := by
    show ∃ rest, (Scanner.start.scan (source ++ more)).finish.toList = _
    rw [Scanner.scan_append]
    rcases ((Scanner.start.scan source).scan more).finish_cases with hsame | ⟨_, _, hlast, -⟩
    · exact ⟨later, hsame.trans hlater.symm⟩
    · rw [hlast, ← hlater, List.append_assoc]
      exact ⟨_, rfl⟩
  obtain ⟨rest, hrest⟩ := htokens
  rw [readChars, hrest, foldlM_append_of_error (foldlM_finished_of_final h hfinal)]
  rfl

/-- A text that can be read and another one on the next line are read one after
the other: the forms of both, or the fault of the second, as far along as the
first and the newline are long. A closing bracket that does not fit, an escape
that strings do not have and too deep a nesting stay what and where they are,
whatever text follows. -/
theorem read_append (first : String) :
    (∀ forms, read first = .ok forms → ∀ second,
      (∀ others, read second = .ok others →
        read (first ++ "\n" ++ second) = .ok (forms ++ others)) ∧
      (∀ fault, read second = .error fault →
        read (first ++ "\n" ++ second) =
          .error (fault.moved (first.utf8ByteSize + 1)))) ∧
    ∀ fault, read first = .error fault → fault.IsFinal → ∀ more,
      read (first ++ more) = .error fault := by
  constructor
  · intro forms hfirst second
    have hboth : read (first ++ "\n" ++ second) =
        ((read second).map (forms ++ ·)).mapError
          (ReadFault.moved (first.utf8ByteSize + 1)) := by
      rw [← byteLength_toList]
      rw [read, String.toList_append, String.toList_append, List.append_assoc]
      exact readChars_append_newline hfirst second.toList
    rw [hboth]
    constructor
    · intro others hothers
      rw [hothers]
      rfl
    · intro fault hfault
      rw [hfault]
      rfl
  · intro fault hfault hfinal more
    rw [read, String.toList_append]
    exact readChars_append_of_final hfault hfinal more.toList

/-- An open comment and a lone `#` end with their line; an escape that strings
do not have is not mended by a new string. -/
theorem read_append_of_seams :
    read ("é #; '" ++ "\n" ++ "'x") = .ok [.symbol "é", .symbol "#", .quote (.symbol "x")] ∧
    read ("é #; '" ++ "\n" ++ "(ü]") = .error (.unexpectedClose ']' 11) ∧
    read ("(\"\\e\" #" ++ "'\"n\")") = .error (.unknownEscape 'e' 2) := by
  have hfirst : read "é #; '" = .ok [.symbol "é", .symbol "#"] := by rfl
  have hsecond := (read_append "é #; '").1 _ hfirst
  refine ⟨?_, ?_, ?_⟩
  · exact (hsecond "'x").1 [.quote (.symbol "x")] (by rfl)
  · exact (hsecond "(ü]").2 (.unexpectedClose ']' 3) (by rfl)
  · exact (read_append "(\"\\e\" #").2 (.unknownEscape 'e' 2) (by rfl) trivial _

end Form

end Rulebook
