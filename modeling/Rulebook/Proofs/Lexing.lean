import Mathlib.Data.List.TakeWhile
import Rulebook.Proofs.Spelling

/-!
# How a text is cut into tokens

The scanner decides one character at a time and so cannot say what a token is;
it only knows what it is in the middle of. The rules below say it of whole
tokens, each with what it must not be followed by, and they are tried in the
order in which they stand. Two of them compete for the same character only at a
`#`: the mark of a function comes before an atom.

That the scanner follows the rules is an induction over the cut. At the start
of a token the scanner is idle, and it is idle again where the next one starts,
with one reservation: a comment and an atom are over only once the scanner has
seen what comes next. So for these two it is shown that seeing it from the
middle comes to the same as seeing it idle. Every text can be cut by the rules,
and since the scanner gives one answer there is one way to do it.
-/

namespace Rulebook.Form

/-- What may stand between the quotes of a string: a backslash takes the next
character along, whatever it is, and no other quote is among the rest. -/
inductive Contents : List Char → Prop
  | nil : Contents []
  | plain {c : Char} {raw : List Char} (quote : c ≠ '"') (slash : c ≠ '\\')
      (more : Contents raw) : Contents (c :: raw)
  | pair {raw : List Char} (c : Char) (more : Contents raw) : Contents ('\\' :: c :: raw)

/-- `Lexes source tokens`: cut by the lexical rules, the text is these tokens.
Nothing is cut after a string that never ends. -/
inductive Lexes : List Char → List Token → Prop
  | done : Lexes [] []
  | blanks {run rest : List Char} {tokens : List Token} (any : run ≠ [])
      (blank : ∀ c ∈ run, Text.isBlank c = true)
      (maximal : ∀ c, rest.head? = some c → Text.isBlank c = false) (more : Lexes rest tokens) :
      Lexes (run ++ rest) tokens
  | comment {line rest : List Char} {tokens : List Token} (within : '\n' ∉ line)
      (ends : rest = [] ∨ rest.head? = some '\n') (more : Lexes rest tokens) :
      Lexes (';' :: (line ++ rest)) tokens
  | opening {rest : List Char} {tokens : List Token} (bracket : Bracket)
      (more : Lexes rest tokens) : Lexes (bracket.opening :: rest) (.opening bracket :: tokens)
  | closing {rest : List Char} {tokens : List Token} (bracket : Bracket)
      (more : Lexes rest tokens) : Lexes (bracket.closing :: rest) (.closing bracket :: tokens)
  | functionMark {rest : List Char} {tokens : List Token} (more : Lexes rest tokens) :
      Lexes ('#' :: '\'' :: rest) (.sigil .function :: tokens)
  | quoteMark {rest : List Char} {tokens : List Token} (more : Lexes rest tokens) :
      Lexes ('\'' :: rest) (.sigil .quote :: tokens)
  | text {raw rest : List Char} {tokens : List Token} (contents : Contents raw)
      (more : Lexes rest tokens) : Lexes ('"' :: (raw ++ '"' :: rest)) (.text raw :: tokens)
  | unterminated {rest : List Char}
      (never : ∀ raw after, Contents raw → rest ≠ raw ++ '"' :: after) :
      Lexes ('"' :: rest) [.unterminated]
  | atom {chars rest : List Char} {tokens : List Token} (any : chars ≠ [])
      (each : ∀ c ∈ chars, isAtomChar c = true)
      (maximal : ∀ c, rest.head? = some c → isAtomChar c = false)
      (unmarked : ¬ ['#', '\''] <+: chars ++ rest) (more : Lexes rest tokens) :
      Lexes (chars ++ rest) (.atom chars :: tokens)

/-! ## The scanner follows the rules -/

namespace Scanner

/-- The tokens of a text that goes on with `rest`. -/
def after (scanner : Scanner) (rest : List Char) : List Token :=
  (scanner.scan rest).finish.toList.map Placed.token

/-- What begins next does not depend on what was going on. -/
theorem begin_idle (scanner : Scanner) (c : Char) :
    { scanner with pending := .nothing }.begin c = scanner.begin c := by
  unfold Scanner.begin
  split <;> rfl

theorem begin_blank (scanner : Scanner) {c : Char} (hc : Text.isBlank c = true) :
    (scanner.begin c).Idle scanner.spelled := by
  unfold Scanner.begin
  split
  case h_9 =>
    rw [if_pos hc]
    exact ⟨rfl, rfl⟩
  all_goals exact absurd hc (by decide)

theorem Idle.scan_blanks {scanner : Scanner} {spelt : List Token} (h : scanner.Idle spelt)
    {run : List Char} (hrun : ∀ c ∈ run, Text.isBlank c = true) :
    (scanner.scan run).Idle spelt := by
  induction run generalizing scanner with
  | nil => exact h
  | cons c run ih =>
      rw [scan_cons]
      refine ih (Idle.step ?_) fun d hd => hrun d (by simp [hd])
      rw [h.take_eq, ← h.spelled]
      exact begin_blank scanner (hrun c (by simp))

/-! A comment is over at the end of its line. -/

theorem scan_comment {scanner : Scanner} (h : scanner.pending = .comment) {line : List Char}
    (hline : '\n' ∉ line) :
    (scanner.scan line).pending = .comment ∧ (scanner.scan line).spelled = scanner.spelled := by
  induction line generalizing scanner with
  | nil => exact ⟨h, rfl⟩
  | cons c line ih =>
      have hc : c ≠ '\n' := fun hc => hline (by simp [hc])
      have htake : scanner.take c = scanner := by
        simp only [take, h, hc, if_false]
      rw [scan_cons]
      have hstill : (scanner.step c).pending = .comment := by rw [pending_step, htake, h]
      obtain ⟨hpending, hspelled⟩ := ih hstill fun hmem => hline (by simp [hmem])
      refine ⟨hpending, hspelled.trans ?_⟩
      rw [spelled_step, htake]

theorem after_comment {scanner : Scanner} (h : scanner.pending = .comment) {rest : List Char}
    (hrest : rest = [] ∨ rest.head? = some '\n') :
    scanner.after rest = { scanner with pending := .nothing }.after rest := by
  rcases hrest with rfl | hhead
  · simp only [after, scan, List.foldl_nil, finish, h]
  · obtain ⟨tail, rfl⟩ : ∃ tail, rest = '\n' :: tail := by
      cases rest with
      | nil => cases hhead
      | cons c tail =>
          cases hhead
          exact ⟨tail, rfl⟩
    have hstep : scanner.step '\n' = { scanner with pending := .nothing }.step '\n' := by
      simp only [step, take, h, if_true]
      rfl
    simp only [after, scan_cons, hstep]

/-! An atom is over at the first character that cannot belong to it. -/

theorem Midway.step_ended {scanner : Scanner} {chars : List Char} {spelt : List Token}
    (h : scanner.Midway chars spelt) {c : Char} (hc : isAtomChar c = false)
    (hmark : chars = ['#'] → c ≠ '\'') :
    ∃ ended : Scanner, ended.Idle (spelt ++ [.atom chars]) ∧ scanner.step c = ended.step c := by
  have hended : ∀ first, scanner.take c = (scanner.emit first (.atom chars)).begin c →
      ∃ ended : Scanner, ended.Idle (spelt ++ [.atom chars]) ∧ scanner.step c = ended.step c := by
    intro first htake
    refine ⟨{ scanner.emit first (.atom chars) with pending := .nothing }, ⟨rfl, ?_⟩, ?_⟩
    · rw [← h.spelled]
      exact spelled_emit scanner first _
    · have hbegin := begin_idle (scanner.emit first (.atom chars)) c
      rw [← htake] at hbegin
      exact congrArg (fun made : Scanner => { made with offset := scanner.offset + c.utf8Size })
        hbegin.symm
  rcases h.pending with ⟨first, hp⟩ | ⟨first, hp, rfl⟩
  · exact hended first (by simp [take, hp, extendAtom, hc])
  · exact hended first (by simp [take, hp, extendAtom, hc, hmark rfl])

theorem Between.after_atom {scanner : Scanner} {chars rest : List Char} {spelt : List Token}
    (h : scanner.Between (spelt ++ [.atom chars]))
    (hmaximal : ∀ c, rest.head? = some c → isAtomChar c = false)
    (hmark : ¬ ['#', '\''] <+: chars ++ rest) :
    ∃ ended : Scanner, ended.Idle (spelt ++ [.atom chars]) ∧
      scanner.after rest = ended.after rest := by
  cases rest with
  | nil =>
      exact ⟨{ scanner with pending := .nothing, tokens := scanner.finish }, ⟨rfl, h.finish⟩, rfl⟩
  | cons c rest =>
      rcases h with hidle | ⟨others, before, hmid, hspelt⟩
      · exact ⟨scanner, hidle, rfl⟩
      · obtain ⟨rfl, hchars⟩ := List.append_inj' hspelt rfl
        cases hchars
        obtain ⟨ended, hended, hstep⟩ := hmid.step_ended (hmaximal c rfl) (by
          rintro rfl rfl
          exact hmark (List.prefix_append _ _))
        exact ⟨ended, hended, by simp only [after, scan_cons, hstep]⟩

/-! A string is over at the first quote that no backslash takes along. -/

theorem InText.scan_contents {scanner : Scanner} {before raw : List Char} {spelt : List Token}
    (h : scanner.InText before spelt) (hraw : Contents raw) :
    (scanner.scan raw).InText (before ++ raw) spelt := by
  induction hraw generalizing scanner before with
  | nil =>
      rw [List.append_nil]
      exact h
  | @plain c raw hquote hslash _ ih =>
      rw [scan_cons, List.append_cons]
      exact ih (h.step_plain hquote hslash)
  | @pair raw c _ ih =>
      have hpair := ih (h.scan_pair c)
      rw [List.append_assoc] at hpair
      exact hpair

/-- A string that has no end is pending wherever the text stops, also just after
a backslash. -/
theorem InText.after_never {scanner : Scanner} {before : List Char} {spelt : List Token}
    (h : scanner.InText before spelt) {rest : List Char}
    (hnever : ∀ raw after, Contents raw → rest ≠ raw ++ '"' :: after) :
    scanner.after rest = spelt ++ [.unterminated] := by
  have hstop : ∀ (stopped : Scanner) (first : Nat) (escaped : Bool) (chars : List Char),
      stopped.pending = .text first escaped chars → stopped.spelled = spelt →
        stopped.after [] = spelt ++ [.unterminated] := by
    intro stopped first escaped chars hp hspelled
    simp only [after, scan, List.foldl_nil, finish, hp, ← hspelled]
    exact spelled_emit _ _ _
  induction hlength : rest.length using Nat.strong_induction_on
    generalizing rest scanner before with
  | _ length ih =>
      cases rest with
      | nil =>
          obtain ⟨first, hp⟩ := h.pending
          exact hstop scanner first false _ hp h.spelled
      | cons c rest =>
          have hquote : c ≠ '"' := fun hc => hnever [] rest .nil (by rw [hc]; rfl)
          rw [List.length_cons] at hlength
          by_cases hslash : c = '\\'
          · subst hslash
            cases rest with
            | nil =>
                obtain ⟨first, hp⟩ := h.pending
                have htake : scanner.take '\\' =
                    { scanner with pending := .text first true ('\\' :: before.reverse) } := by
                  simp [take, hp]
                refine hstop (scanner.step '\\') first true ('\\' :: before.reverse) ?_ ?_
                · rw [pending_step, htake]
                · rw [spelled_step, htake]
                  exact h.spelled
            | cons d rest =>
                rw [List.length_cons] at hlength
                refine ih rest.length (by omega) (h.scan_pair d)
                  (fun raw after hraw hrest => ?_) rfl
                exact hnever ('\\' :: d :: raw) after (.pair d hraw) (by rw [hrest]; rfl)
          · refine ih rest.length (by omega) (h.step_plain hquote hslash)
              (fun raw after hraw hrest => ?_) rfl
            exact hnever (c :: raw) after (.plain hquote hslash hraw) (by rw [hrest]; rfl)

theorem Idle.step_text {scanner : Scanner} {spelt : List Token} (h : scanner.Idle spelt) :
    (scanner.step '"').InText [] spelt := by
  have htext := begin_text scanner
  rw [← h.take_eq, h.spelled] at htext
  exact ⟨htext.pending, htext.spelled⟩

end Scanner

open Scanner

/-- Wherever a token may start, the scanner cuts the rest as the rules do. -/
theorem Lexes.after {source : List Char} {tokens : List Token} (h : Lexes source tokens) :
    ∀ {scanner : Scanner} {spelt : List Token}, scanner.Idle spelt →
      scanner.after source = spelt ++ tokens := by
  induction h with
  | done =>
      intro scanner spelt hidle
      rw [List.append_nil]
      exact (show scanner.Between spelt from .inl hidle).finish
  | @blanks run rest tokens _ hblank _ _ ih =>
      intro scanner spelt hidle
      rw [Scanner.after, scan_append]
      exact ih (hidle.scan_blanks hblank)
  | @comment line rest tokens hwithin hends _ ih =>
      intro scanner spelt hidle
      have hopen : (scanner.step ';').pending = .comment := by
        rw [pending_step, hidle.take_eq]
        rfl
      have hspelled : (scanner.step ';').spelled = spelt := by
        rw [spelled_step, hidle.take_eq]
        exact hidle.spelled
      obtain ⟨hpending, hline⟩ := scan_comment hopen hwithin
      rw [Scanner.after, scan_cons, scan_append]
      exact (after_comment hpending hends).trans (ih ⟨rfl, hline.trans hspelled⟩)
  | @opening rest tokens bracket _ ih =>
      intro scanner spelt hidle
      have hstep : (scanner.step bracket.opening).Idle (spelt ++ [.opening bracket]) := by
        apply Idle.step
        rw [hidle.take_eq, ← hidle.spelled]
        exact begin_opening scanner bracket
      rw [List.append_cons]
      exact ih hstep
  | @closing rest tokens bracket _ ih =>
      intro scanner spelt hidle
      rw [List.append_cons]
      exact ih ((show scanner.Between spelt from .inl hidle).step_closing bracket)
  | functionMark _ ih =>
      intro scanner spelt hidle
      rw [List.append_cons]
      exact ih hidle.step_functionMark
  | quoteMark _ ih =>
      intro scanner spelt hidle
      rw [List.append_cons]
      exact ih hidle.step_quoteMark
  | @text raw rest tokens hraw _ ih =>
      intro scanner spelt hidle
      have hclosed := (hidle.step_text.scan_contents hraw).step_quote
      rw [Scanner.after, scan_cons, scan_append, List.append_cons]
      exact ih hclosed
  | unterminated hnever =>
      intro scanner spelt hidle
      exact hidle.step_text.after_never hnever
  | @atom chars rest tokens hany heach hmaximal hunmarked _ ih =>
      intro scanner spelt hidle
      obtain ⟨ended, hended, hafter⟩ :=
        (hidle.scan_atom hany heach).after_atom hmaximal hunmarked
      rw [Scanner.after, scan_append, List.append_cons]
      exact hafter.trans (ih hended)

/-! ## Every text can be cut -/

theorem head?_dropWhile {α : Type} {p : α → Bool} {items : List α} {c : α}
    (h : (items.dropWhile p).head? = some c) : p c = false := by
  have hnot := List.head?_dropWhile_not p items
  rw [h] at hnot
  simpa using hnot

theorem lexes_blanks {c : Char} {rest : List Char} (hc : Text.isBlank c = true)
    (h : ∃ tokens, Lexes (rest.dropWhile Text.isBlank) tokens) :
    ∃ tokens, Lexes (c :: rest) tokens := by
  obtain ⟨tokens, hmore⟩ := h
  have hrun : ∀ d ∈ c :: rest.takeWhile Text.isBlank, Text.isBlank d = true := by
    intro d hd
    rcases List.mem_cons.mp hd with rfl | hd
    · exact hc
    · exact List.mem_takeWhile_imp hd
  have hcut := Lexes.blanks (List.cons_ne_nil _ _) hrun (fun d => head?_dropWhile) hmore
  rw [List.cons_append, List.takeWhile_append_dropWhile] at hcut
  exact ⟨tokens, hcut⟩

theorem lexes_comment {rest : List Char}
    (h : ∃ tokens, Lexes (rest.dropWhile (· != '\n')) tokens) :
    ∃ tokens, Lexes (';' :: rest) tokens := by
  obtain ⟨tokens, hmore⟩ := h
  have hline : '\n' ∉ rest.takeWhile (· != '\n') := fun hmem => by
    simpa using List.mem_takeWhile_imp hmem
  have hends : rest.dropWhile (· != '\n') = [] ∨
      (rest.dropWhile (· != '\n')).head? = some '\n' := by
    cases hhead : (rest.dropWhile (· != '\n')).head? with
    | none => exact .inl (List.head?_eq_none_iff.mp hhead)
    | some c => exact .inr (by simpa using head?_dropWhile hhead)
  have hcut := Lexes.comment hline hends hmore
  rw [List.takeWhile_append_dropWhile] at hcut
  exact ⟨tokens, hcut⟩

theorem lexes_atom {c : Char} {rest : List Char} (hc : isAtomChar c = true)
    (hmark : ¬ ['#', '\''] <+: c :: rest)
    (h : ∃ tokens, Lexes (rest.dropWhile isAtomChar) tokens) :
    ∃ tokens, Lexes (c :: rest) tokens := by
  obtain ⟨tokens, hmore⟩ := h
  have hchars : ∀ d ∈ c :: rest.takeWhile isAtomChar, isAtomChar d = true := by
    intro d hd
    rcases List.mem_cons.mp hd with rfl | hd
    · exact hc
    · exact List.mem_takeWhile_imp hd
  have hwhole : (c :: rest.takeWhile isAtomChar) ++ rest.dropWhile isAtomChar = c :: rest := by
    rw [List.cons_append, List.takeWhile_append_dropWhile]
  have hcut := Lexes.atom (List.cons_ne_nil _ _) hchars (fun d => head?_dropWhile)
    (by rwa [hwhole]) hmore
  rw [hwhole] at hcut
  exact ⟨_, hcut⟩

/-- The rules cut every text up to its end, or up to a string that has none: a
character is blank or may stand in an atom or is one of seven others, and each
of these has a rule. No text is refused for a character that begins no token. -/
theorem exists_lexes (source : List Char) : ∃ tokens, Lexes source tokens := by
  match source with
  | [] => exact ⟨[], .done⟩
  | c :: rest =>
      have hshorter : ∀ text : List Char, text.length ≤ rest.length → ∃ tokens, Lexes text tokens :=
        fun text _ => exists_lexes text
      have hdrop : ∀ p : Char → Bool, ∃ tokens, Lexes (rest.dropWhile p) tokens :=
        fun p => hshorter _ (List.dropWhile_sublist p).length_le
      obtain ⟨tokens, hmore⟩ := hshorter rest (Nat.le_refl _)
      by_cases hblank : Text.isBlank c = true
      · exact lexes_blanks hblank (hdrop Text.isBlank)
      by_cases hatom : isAtomChar c = true
      · by_cases hmark : ['#', '\''] <+: c :: rest
        · obtain ⟨tail, htail⟩ := hmark
          cases htail
          obtain ⟨found, htail⟩ := hshorter tail (by simp)
          exact ⟨_, .functionMark htail⟩
        · exact lexes_atom hatom hmark (hdrop isAtomChar)
      have hspecial : c = '(' ∨ c = ')' ∨ c = '[' ∨ c = ']' ∨ c = '\'' ∨ c = '"' ∨ c = ';' := by
        rw [isAtomChar_iff] at hatom
        by_contra hnone
        simp only [not_or] at hnone
        exact hatom ⟨by simpa using hblank, hnone⟩
      rcases hspecial with rfl | rfl | rfl | rfl | rfl | rfl | rfl
      · exact ⟨_, .opening .round hmore⟩
      · exact ⟨_, .closing .round hmore⟩
      · exact ⟨_, .opening .square hmore⟩
      · exact ⟨_, .closing .square hmore⟩
      · exact ⟨_, .quoteMark hmore⟩
      · by_cases hends : ∃ raw after, Contents raw ∧ rest = raw ++ '"' :: after
        · obtain ⟨raw, after, hraw, rfl⟩ := hends
          obtain ⟨found, hafter⟩ := hshorter after (by simp; omega)
          exact ⟨_, .text hraw hafter⟩
        · exact ⟨_, .unterminated fun raw after hraw hrest => hends ⟨raw, after, hraw, hrest⟩⟩
      · exact lexes_comment (hdrop (· != '\n'))
termination_by source.length
decreasing_by
  rw [List.length_cons]
  omega

/-- The scanner finds the tokens that the lexical rules give, and these alone. -/
theorem lexes_iff {source : List Char} {spelt : List Token} :
    Lexes source spelt ↔ (tokens source).map Placed.token = spelt := by
  have hscan : ∀ {found}, Lexes source found → (tokens source).map Placed.token = found :=
    fun hfound => hfound.after idle_start
  constructor
  · exact hscan
  · intro h
    obtain ⟨found, hfound⟩ := exists_lexes source
    rwa [← h, hscan hfound]

end Rulebook.Form
