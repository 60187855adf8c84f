import Mathlib.Data.List.Induction
import Rulebook.Proofs.Concatenation

/-!
# Where the tokens of a text stand

A token is placed at the byte where it starts. That the byte is the right one
says two things: the characters before it are that many bytes long and the
characters after it spell the token, and what is cut from the characters before
it, taken alone, are the tokens that come before it.

While the text is scanned this holds of every finished token, and of the one
that is pending it holds with the characters that it has so far. A token is
finished either with its last character or just before a character that begins
the next one, and then the tokens of the text so far are those that the scanner
has. A string that never ends is the exception: its token is the quote, and all
that follows is known of is that no quote ends the string.
-/

namespace Rulebook.Form

/-- The characters of a token. Of a string that never ends it is the quote. -/
def Token.chars : Token → List Char
  | .opening bracket => [bracket.opening]
  | .closing bracket => [bracket.closing]
  | .sigil .quote => ['\'']
  | .sigil .function => ['#', '\'']
  | .text raw => '"' :: raw ++ ['"']
  | .unterminated => ['"']
  | .atom chars => chars

/-- No quote ends a string that goes on with these characters. -/
def Endless (after : List Char) : Prop :=
  ∀ raw rest, Contents raw → after ≠ raw ++ '"' :: rest

/-- `Stands source before token after`: the token is in the text between these
characters, and the tokens before it are those of `before` alone. -/
structure Stands (source before : List Char) (token : Token) (after : List Char) : Prop where
  whole : source = before ++ token.chars ++ after
  cut : tokens before ++ [⟨byteLength before, token⟩] <+: tokens source

/-! ## Where the tokens stand -/

theorem byteLength_append (first rest : List Char) :
    byteLength (first ++ rest) = byteLength first + byteLength rest := by
  induction first with
  | nil => exact (Nat.zero_add _).symm
  | cons c first ih => rw [List.cons_append, byteLength, byteLength, ih, Nat.add_assoc]

/-- Each of the finished tokens `found` has its characters in the text, and the
tokens before it are those of the characters before it. -/
def Found (text : List Char) (found : List Placed) : Prop :=
  ∀ done placed, done ++ [placed] <+: found → placed.token ≠ .unterminated ∧
    ∃ before after, text = before ++ placed.token.chars ++ after ∧
      byteLength before = placed.offset ∧ tokens before = done

/-- A token that begins at the byte `first` has these characters so far, and the
text ends with them. -/
def Begun (text : List Char) (found : List Placed) (first : Nat) (chars : List Char) : Prop :=
  ∃ before, text = before ++ chars ∧ byteLength before = first ∧ tokens before = found

/-- What is pending at the end of the text. After a backslash any character may
follow. -/
def Pending.Covers (text : List Char) (found : List Placed) : Pending → Prop
  | .nothing | .comment => True
  | .hash first => Begun text found first ['#']
  | .atom first chars => Begun text found first chars.reverse
  | .text first false chars =>
    Begun text found first ('"' :: chars.reverse) ∧ Contents chars.reverse
  | .text first true chars =>
    Begun text found first ('"' :: chars.reverse) ∧ ∀ c, Contents (chars.reverse ++ [c])

/-- The scanner's tokens, finished and pending, are in the text. -/
structure Scanner.Places (scanner : Scanner) (text : List Char) : Prop where
  found : Found text scanner.tokens.toList
  pending : scanner.pending.Covers text scanner.tokens.toList

theorem Contents.append {first rest : List Char} (h : Contents first) (hrest : Contents rest) :
    Contents (first ++ rest) := by
  induction h with
  | nil => exact hrest
  | plain hquote hslash _ ih => exact .plain hquote hslash ih
  | pair c _ ih => exact .pair c ih

/-- A quote after the contents of a string is not part of them. -/
theorem Contents.ended {raw rest : List Char} (h : Contents raw) :
    ¬ Contents (raw ++ '"' :: rest) := by
  induction h with
  | nil =>
      intro hwhole
      cases hwhole with
      | plain hquote => exact hquote rfl
  | plain _ hslash _ ih =>
      intro hwhole
      rw [List.cons_append] at hwhole
      generalize hall : _ ++ '"' :: rest = all at hwhole
      cases hwhole with
      | plain _ _ hmore => exact ih (hall ▸ hmore)
      | pair => exact hslash rfl
  | pair c _ ih =>
      intro hwhole
      rw [List.cons_append, List.cons_append] at hwhole
      cases hwhole with
      | plain _ hslash => exact hslash rfl
      | pair _ hmore => exact ih hmore

theorem endless_of_contents {after : List Char} (more : List Char) (h : Contents (after ++ more)) :
    Endless after := by
  rintro raw rest hraw rfl
  rw [List.append_assoc] at h
  exact hraw.ended h

theorem Found.more {text : List Char} {found : List Placed} (h : Found text found)
    (more : List Char) : Found (text ++ more) found := by
  intro done placed hprefix
  obtain ⟨hended, before, after, rfl, hplace⟩ := h done placed hprefix
  exact ⟨hended, before, after ++ more, List.append_assoc _ _ _, hplace⟩

theorem Begun.more {text chars : List Char} {found : List Placed} {first : Nat}
    (h : Begun text found first chars) (more : List Char) :
    Begun (text ++ more) found first (chars ++ more) := by
  obtain ⟨before, rfl, hplace⟩ := h
  exact ⟨before, List.append_assoc _ _ _, hplace⟩

theorem Found.emit {text : List Char} {found : List Placed} {first : Nat} {token : Token}
    (h : Found text found) (hended : token ≠ .unterminated)
    (hbegun : Begun text found first token.chars) : Found text (found ++ [⟨first, token⟩]) := by
  intro done placed hprefix
  rcases List.prefix_concat_iff.mp hprefix with hlast | hearlier
  · obtain ⟨rfl, hplaced⟩ := List.append_inj' hlast rfl
    cases hplaced
    obtain ⟨before, htext, hplace⟩ := hbegun
    exact ⟨hended, before, [], by rw [htext, List.append_nil], hplace⟩
  · exact h done placed hearlier

namespace Scanner

theorem Places.emit {scanner : Scanner} {text : List Char} {first : Nat} (token : Token)
    (h : Found text scanner.tokens.toList) (hended : token ≠ .unterminated)
    (hbegun : Begun text scanner.tokens.toList first token.chars) :
    ({ scanner with pending := .nothing }.emit first token).Places text := by
  refine ⟨?_, trivial⟩
  show Found text (scanner.tokens.push _).toList
  rw [Array.toList_push]
  exact h.emit hended hbegun

/-- Where no token is pending, one begins at the end of the text. -/
theorem places_begin (scanner : Scanner) {text : List Char}
    (hoffset : scanner.offset = byteLength text)
    (htokens : Form.tokens text = scanner.tokens.toList)
    (h : Found text scanner.tokens.toList) (c : Char) : (scanner.begin c).Places (text ++ [c]) := by
  have hbegun : Begun (text ++ [c]) scanner.tokens.toList scanner.offset [c] :=
    ⟨text, rfl, hoffset.symm, htokens⟩
  have hfound := h.more [c]
  unfold Scanner.begin
  dsimp only
  split
  case h_6 => exact ⟨hfound, hbegun, .nil⟩
  case h_7 => exact ⟨hfound, trivial⟩
  case h_8 => exact ⟨hfound, hbegun⟩
  case h_9 =>
    split
    · exact ⟨hfound, trivial⟩
    · exact ⟨hfound, hbegun⟩
  all_goals exact Places.emit _ hfound (by simp) hbegun

theorem places_extendAtom {scanner : Scanner} {text : List Char} {first : Nat} (chars : List Char)
    (hoffset : scanner.offset = byteLength text)
    (htokens : Form.tokens text = (scanner.emit first (.atom chars.reverse)).tokens.toList)
    (h : Found text scanner.tokens.toList)
    (hbegun : Begun text scanner.tokens.toList first chars.reverse) (c : Char) :
    (scanner.extendAtom first chars c).Places (text ++ [c]) := by
  unfold extendAtom
  split
  · refine ⟨h.more [c], ?_⟩
    show Begun _ _ _ (c :: chars).reverse
    rw [List.reverse_cons]
    exact hbegun.more [c]
  · have hatom := (Places.emit (.atom chars.reverse) h (by simp) hbegun).found
    exact places_begin (scanner.emit first _) hoffset htokens hatom c

/-- One character keeps the tokens in their places. That the offset moves on with
it makes no difference to where they are. -/
theorem Places.step {text : List Char} (h : (start.scan text).Places text) (c : Char) :
    ((start.scan text).step c).Places (text ++ [c]) := by
  have hoffset : (start.scan text).offset = byteLength text := by
    rw [offset_scan]
    exact Nat.zero_add _
  have htokens : Form.tokens text = (start.scan text).finish.toList := rfl
  obtain ⟨hfound, hpending⟩ := h
  suffices htake : ((start.scan text).take c).Places (text ++ [c]) from
    ⟨htake.found, htake.pending⟩
  generalize start.scan text = scanner at *
  obtain ⟨offset, pending, done⟩ := scanner
  cases pending with
  | nothing => exact places_begin _ hoffset htokens hfound c
  | comment =>
      simp only [take]
      split <;> exact ⟨hfound.more [c], trivial⟩
  | hash first =>
      have hbegun : Begun text done.toList first ['#'] := hpending
      simp only [take]
      split
      · next hc =>
          subst hc
          exact Places.emit _ (hfound.more _) (by simp) (hbegun.more _)
      · exact places_extendAtom ['#'] hoffset htokens hfound hbegun c
  | atom first chars => exact places_extendAtom chars hoffset htokens hfound hpending c
  | text first escaped chars =>
      have hchars : '"' :: (c :: chars).reverse = ('"' :: chars.reverse) ++ [c] := by simp
      cases escaped with
      | true =>
          obtain ⟨hbegun, hcontents⟩ := hpending
          refine ⟨hfound.more [c], ?_, ?_⟩
          · rw [hchars]
            exact hbegun.more [c]
          · rw [List.reverse_cons]
            exact hcontents c
      | false =>
          obtain ⟨hbegun, hcontents⟩ := hpending
          simp only [take]
          split
          · next hc =>
              subst hc
              exact Places.emit _ (hfound.more _) (by simp) (hbegun.more _)
          · next hquote =>
              refine ⟨hfound.more [c], ?_⟩
              by_cases hslash : c = '\\'
              · subst hslash
                refine ⟨hchars ▸ hbegun.more _, fun d => ?_⟩
                rw [List.reverse_cons, List.append_assoc]
                exact hcontents.append (.pair d .nil)
              · simp only [hslash, decide_false]
                refine ⟨hchars ▸ hbegun.more _, ?_⟩
                rw [List.reverse_cons]
                exact hcontents.append (.plain hquote hslash .nil)

theorem places_scan (text : List Char) : (start.scan text).Places text := by
  induction text using List.reverseRecOn with
  | nil =>
      refine ⟨fun done placed hprefix => ?_, trivial⟩
      exact absurd (List.prefix_nil.mp hprefix) (by simp)
  | append_singleton text c ih =>
      rw [scan_append]
      exact ih.step c

end Scanner

/-- The tokens of a text are finished, all but the quote of a string that never
ends. -/
theorem found_or_endless (source : List Char) :
    Found source (tokens source) ∨ ∃ before after, source = before ++ '"' :: after ∧
      Endless after ∧ tokens source = tokens before ++ [⟨byteLength before, .unterminated⟩] ∧
        Found source (tokens before) := by
  obtain ⟨hfound, hpending⟩ := Scanner.places_scan source
  have htokens : tokens source = (Scanner.start.scan source).finish.toList := rfl
  generalize Scanner.start.scan source = scanner at *
  rw [htokens]
  obtain ⟨offset, pending, found⟩ := scanner
  cases pending with
  | nothing => exact .inl hfound
  | comment => exact .inl hfound
  | hash first =>
      exact .inl (Scanner.Places.emit (.atom ['#']) hfound (by simp) hpending).found
  | atom first chars =>
      exact .inl (Scanner.Places.emit (.atom chars.reverse) hfound (by simp) hpending).found
  | text first escaped chars =>
      obtain ⟨⟨before, hwhole, rfl, hdone⟩, hendless⟩ :
          Begun source found.toList first ('"' :: chars.reverse) ∧ Endless chars.reverse := by
        cases escaped with
        | false => exact ⟨hpending.1, endless_of_contents [] (by simpa using hpending.2)⟩
        | true => exact ⟨hpending.1, endless_of_contents ['"'] (hpending.2 '"')⟩
      rw [← hdone] at hfound
      refine .inr ⟨before, chars.reverse, hwhole, hendless, ?_, hfound⟩
      rw [hdone]
      exact Array.toList_push

/-- Every token stands in the text, behind the tokens before it. -/
theorem exists_stands {source : List Char} {done later : List Placed} {placed : Placed}
    (h : tokens source = done ++ placed :: later) :
    ∃ before after, tokens before = done ∧ placed = ⟨byteLength before, placed.token⟩ ∧
      Stands source before placed.token after ∧
        (placed.token = .unterminated → Endless after) := by
  have hprefix : done ++ [placed] <+: tokens source := ⟨later, by rw [h, ← List.append_cons]⟩
  have hfinished : ∀ {found : List Placed}, Found source found → done ++ [placed] <+: found →
      ∃ before after, tokens before = done ∧ placed = ⟨byteLength before, placed.token⟩ ∧
        Stands source before placed.token after ∧
          (placed.token = .unterminated → Endless after) := by
    intro found hfound hdone
    obtain ⟨hended, before, after, hwhole, hoffset, rfl⟩ := hfound done placed hdone
    refine ⟨before, after, rfl, by rw [hoffset], ⟨hwhole, ?_⟩, fun hnever => absurd hnever hended⟩
    rwa [hoffset]
  rcases found_or_endless source with hfound | ⟨before, after, hwhole, hendless, hlast, hfound⟩
  · exact hfinished hfound hprefix
  · have hconcat := hprefix
    rw [hlast] at hconcat
    rcases List.prefix_concat_iff.mp hconcat with heq | hearlier
    · obtain ⟨rfl, hplaced⟩ := List.append_inj' heq rfl
      cases hplaced
      refine ⟨before, after, rfl, rfl, ⟨?_, hprefix⟩, fun _ => hendless⟩
      rw [hwhole, List.append_cons]
      rfl
    · exact hfinished hfound hearlier

end Rulebook.Form
