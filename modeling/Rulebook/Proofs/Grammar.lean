import Rulebook.Proofs.Lexing
import Rulebook.Proofs.RoundTrip

/-!
# The reader accepts its grammar

The grammar of forms is recursive and the reader is a loop with a stack, so the
two meet in an invariant: at each point of the text the tokens so far are those
of the forms that the reader holds, level by level, with the brackets and the
sigils that still wait in between. A token keeps it so, and once the text has
ended with nothing left waiting, what remains is a derivation of the forms.

For the converse the grammar's freedom is small. Two texts of one form differ
in how they spell its atoms and strings, and of these the reader takes only the
meaning. So it cannot tell the tokens of a derivation from those that the form
is written with, and what it does with the latter is known.
-/

namespace Rulebook.Form

/-- `Denotes chars value`: an optional sign and ASCII digits that spell the
integer. -/
inductive Denotes : List Char → Int → Prop
  | unsigned {digits : List Char} (any : digits ≠ []) (each : ∀ c ∈ digits, c.isDigit = true) :
      Denotes digits (Nat.ofDigitChars 10 digits 0)
  | plus {digits : List Char} (any : digits ≠ []) (each : ∀ c ∈ digits, c.isDigit = true) :
      Denotes ('+' :: digits) (Nat.ofDigitChars 10 digits 0)
  | minus {digits : List Char} (any : digits ≠ []) (each : ∀ c ∈ digits, c.isDigit = true) :
      Denotes ('-' :: digits) (-(Nat.ofDigitChars 10 digits 0 : Int))

/-- `Resolves raw content`: the contents of a string that uses only the four
escapes, and what they mean. -/
inductive Resolves : List Char → List Char → Prop
  | nil : Resolves [] []
  | plain {c : Char} {raw content : List Char} (slash : c ≠ '\\') (more : Resolves raw content) :
      Resolves (c :: raw) (c :: content)
  | quote {raw content : List Char} (more : Resolves raw content) :
      Resolves ('\\' :: '"' :: raw) ('"' :: content)
  | backslash {raw content : List Char} (more : Resolves raw content) :
      Resolves ('\\' :: '\\' :: raw) ('\\' :: content)
  | lineFeed {raw content : List Char} (more : Resolves raw content) :
      Resolves ('\\' :: 'n' :: raw) ('\n' :: content)
  | tab {raw content : List Char} (more : Resolves raw content) :
      Resolves ('\\' :: 't' :: raw) ('\t' :: content)

mutual

/-- `Derives tokens form`: the tokens are one form of the grammar, and this is
the form. -/
inductive Derives : List Token → Form → Prop
  | int {chars : List Char} {value : Int64} (denotes : Denotes chars value.toInt) :
      Derives [.atom chars] (.int value)
  | symbol {chars : List Char} (other : ∀ value : Int64, ¬ Denotes chars value.toInt) :
      Derives [.atom chars] (.symbol (String.ofList chars))
  | text {raw content : List Char} (resolves : Resolves raw content) :
      Derives [.text raw] (.text (String.ofList content))
  | marked {tokens : List Token} {form : Form} (sigil : Sigil) (within : Derives tokens form) :
      Derives (.sigil sigil :: tokens) (sigil.mark form)
  | bracket {tokens : List Token} {forms : List Form} (bracket : Bracket)
      (within : DerivesAll tokens forms) :
      Derives (.opening bracket :: tokens ++ [.closing bracket]) (bracket.enclose forms)

/-- `DerivesAll tokens forms`: the tokens are these forms one after the other. -/
inductive DerivesAll : List Token → List Form → Prop
  | nil : DerivesAll [] []
  | cons {first rest : List Token} {form : Form} {forms : List Form}
      (one : Derives first form) (more : DerivesAll rest forms) :
      DerivesAll (first ++ rest) (form :: forms)

end

/-- A string ends and uses only the four escapes. -/
def Token.Proper : Token → Prop
  | .unterminated => False
  | .text raw => ∃ content, Resolves raw content
  | _ => True

/-! ## Atoms and strings -/

theorem int64?_eq_some {number : Int} {value : Int64} :
    Text.int64? number = some value ↔ value.toInt = number := by
  unfold Text.int64?
  split
  · next hrange =>
      obtain ⟨hlow, hhigh⟩ := hrange
      rw [Int64.toInt_maxValue] at hhigh
      have hword : (Int64.ofInt number).toInt = number :=
        Int64.toInt_ofInt_of_le hlow (by omega)
      rw [Option.some.injEq, ← Int64.toInt_inj, hword, eq_comm]
  · next hrange =>
      constructor
      · intro h
        cases h
      · rintro rfl
        exact absurd ⟨value.minValue_le_toInt, value.toInt_le⟩ hrange

theorem naturalLiteral?_eq_some {digits : List Char} {number : Nat} :
    Text.naturalLiteral? digits = some number ↔
      (digits ≠ [] ∧ ∀ c ∈ digits, c.isDigit = true) ∧ Nat.ofDigitChars 10 digits 0 = number := by
  simp [Text.naturalLiteral?]

/-- A sign and digits, read as a literal: the three spellings differ only in
what is done with the number. -/
theorem literal_eq_some {digits : List Char} {signed : Nat → Int} {value : Int64} :
    ((Text.naturalLiteral? digits).bind fun number => Text.int64? (signed number)) = some value ↔
      (digits ≠ [] ∧ ∀ c ∈ digits, c.isDigit = true) ∧
        value.toInt = signed (Nat.ofDigitChars 10 digits 0) := by
  simp only [Option.bind_eq_some_iff, naturalLiteral?_eq_some, int64?_eq_some]
  constructor
  · rintro ⟨number, ⟨hdigits, rfl⟩, hvalue⟩
    exact ⟨hdigits, hvalue⟩
  · rintro ⟨hdigits, hvalue⟩
    exact ⟨_, ⟨hdigits, rfl⟩, hvalue⟩

theorem integerLiteral?_eq_some {chars : List Char} {value : Int64} :
    Text.integerLiteral? chars = some value ↔ Denotes chars value.toInt := by
  constructor
  · intro h
    unfold Text.integerLiteral? at h
    split at h
    all_goals
      obtain ⟨⟨hany, heach⟩, hvalue⟩ := literal_eq_some.mp h
      rw [hvalue]
    · exact .minus hany heach
    · exact .plus hany heach
    · exact .unsigned hany heach
  · intro h
    generalize hnumber : value.toInt = number at h
    cases h with
    | plus hany heach => exact literal_eq_some.mpr ⟨⟨hany, heach⟩, hnumber⟩
    | minus hany heach => exact literal_eq_some.mpr ⟨⟨hany, heach⟩, hnumber⟩
    | unsigned hany heach =>
        rw [Text.integerLiteral?]
        · exact literal_eq_some.mpr ⟨⟨hany, heach⟩, hnumber⟩
        · rintro digits rfl
          exact absurd (heach '-' (by simp)) (by decide)
        · rintro digits rfl
          exact absurd (heach '+' (by simp)) (by decide)

theorem derives_ofAtom (chars : List Char) : Derives [.atom chars] (ofAtom chars) := by
  unfold ofAtom
  split
  · next value hliteral => exact .int (integerLiteral?_eq_some.mp hliteral)
  · next hliteral =>
      refine .symbol fun value hdenotes => ?_
      rw [← integerLiteral?_eq_some, hliteral] at hdenotes
      cases hdenotes

theorem Resolves.escape {c meant : Char} {raw content : List Char} (h : Resolves raw content)
    (hescape : escape? c = some meant) : Resolves ('\\' :: c :: raw) (meant :: content) := by
  unfold escape? at hescape
  split at hescape <;> cases hescape
  · exact .quote h
  · exact .backslash h
  · exact .lineFeed h
  · exact .tab h

theorem resolves_of_unescape {raw content : List Char} (hraw : Contents raw) {offset : Nat}
    (h : unescape offset raw = .ok content) : Resolves raw content := by
  induction hraw generalizing offset content with
  | nil =>
      cases h
      exact .nil
  | @plain c raw _ hslash _ ih =>
      rw [unescape_plain hslash] at h
      obtain ⟨meant, hmore, rfl⟩ := map_eq_ok.mp h
      exact .plain hslash (ih hmore)
  | @pair raw c _ ih =>
      rw [unescape] at h
      split at h
      · next meant hescape =>
          obtain ⟨rest, hmore, rfl⟩ := map_eq_ok.mp h
          exact (ih hmore).escape hescape
      · cases h

theorem Resolves.unescape {raw content : List Char} (h : Resolves raw content) (offset : Nat) :
    unescape offset raw = .ok content := by
  induction h generalizing offset with
  | nil => rfl
  | plain hslash _ ih =>
      rw [unescape_plain hslash, ih]
      rfl
  | quote _ ih | backslash _ ih | lineFeed _ ih | tab _ ih =>
      rw [Form.unescape, ih]
      rfl

/-! ## What is read is derived -/

theorem DerivesAll.append {first rest : List Token} {forms others : List Form}
    (h : DerivesAll first forms) (hrest : DerivesAll rest others) :
    DerivesAll (first ++ rest) (forms ++ others) := by
  induction forms generalizing first with
  | nil =>
      cases h
      exact hrest
  | cons form forms ih =>
      cases h with
      | cons hone hmore =>
          rw [List.append_assoc]
          exact .cons hone (ih hmore)

theorem Derives.alone {tokens : List Token} {form : Form} (h : Derives tokens form) :
    DerivesAll tokens [form] := by
  rw [← List.append_nil tokens]
  exact .cons h .nil

/-- The tokens of the sigils that wait in a level, the first one first. -/
def Level.waiting (level : Level) : List Token :=
  level.sigils.reverse.map fun sigil => .sigil sigil.2

/-- The tokens are those of the level's complete forms and of the sigils that
wait for the next one. -/
def Level.Accounts (level : Level) (tokens : List Token) : Prop :=
  ∃ complete, DerivesAll complete level.items.reverse ∧ tokens = complete ++ level.waiting

/-- The tokens are those of a level and of all levels around it, with the open
brackets between them. -/
inductive Accounts : Level → List OpenBracket → List Token → Prop
  | top {level : Level} {tokens : List Token} (here : level.Accounts tokens) :
      Accounts level [] tokens
  | inside {level : Level} {opened : OpenBracket} {around : List OpenBracket}
      {outer tokens : List Token} (outside : Accounts opened.outer around outer)
      (here : level.Accounts tokens) :
      Accounts level (opened :: around) (outer ++ .opening opened.bracket :: tokens)

theorem derives_waiting (sigils : List (Nat × Sigil)) {tokens : List Token} {form : Form}
    (h : Derives tokens form) :
    Derives (sigils.reverse.map (fun sigil => .sigil sigil.2) ++ tokens)
      (sigils.foldl (fun inner sigil => sigil.2.mark inner) form) := by
  induction sigils generalizing tokens form with
  | nil => exact h
  | cons sigil sigils ih =>
      have hmarked := ih (h.marked sigil.2)
      rw [List.reverse_cons, List.map_append, List.append_assoc]
      exact hmarked

theorem Level.Accounts.push {level : Level} {tokens more : List Token} {form : Form}
    (h : level.Accounts tokens) (hform : Derives more form) :
    (level.push form).Accounts (tokens ++ more) := by
  obtain ⟨complete, hcomplete, rfl⟩ := h
  refine ⟨complete ++ (level.waiting ++ more), ?_, ?_⟩
  · show DerivesAll _ (List.reverse (_ :: level.items))
    rw [List.reverse_cons]
    exact hcomplete.append (derives_waiting level.sigils hform).alone
  · show _ = _ ++ []
    rw [List.append_nil, List.append_assoc]

theorem Accounts.push {level : Level} {around : List OpenBracket} {tokens more : List Token}
    {form : Form} (h : Accounts level around tokens) (hform : Derives more form) :
    Accounts (level.push form) around (tokens ++ more) := by
  cases h with
  | top hhere => exact .top (hhere.push hform)
  | inside houtside hhere =>
      rw [List.append_assoc]
      exact .inside houtside (hhere.push hform)

theorem Accounts.wait {level : Level} {around : List OpenBracket} {tokens : List Token}
    (h : Accounts level around tokens) (offset : Nat) (sigil : Sigil) :
    Accounts { level with sigils := (offset, sigil) :: level.sigils } around
      (tokens ++ [.sigil sigil]) := by
  have hlevel : ∀ {inner : List Token}, level.Accounts inner →
      Level.Accounts { level with sigils := (offset, sigil) :: level.sigils }
        (inner ++ [.sigil sigil]) := by
    rintro inner ⟨complete, hcomplete, rfl⟩
    exact ⟨complete, hcomplete, by simp [Level.waiting]⟩
  cases h with
  | top hhere => exact .top (hlevel hhere)
  | inside houtside hhere =>
      rw [List.append_assoc]
      exact .inside houtside (hlevel hhere)

theorem Level.Accounts.close {level : Level} {tokens : List Token} {forms : List Form}
    (h : level.Accounts tokens) (hclose : level.close = .ok forms) : DerivesAll tokens forms := by
  obtain ⟨complete, hcomplete, rfl⟩ := h
  rw [Level.close_eq_ok hclose, Level.waiting, Level.sigils_of_close hclose]
  simpa using hcomplete

/-- A string's contents as the lexical rules leave them. -/
def Token.Lexical : Token → Prop
  | .text raw => Contents raw
  | _ => True

/-- One token keeps the account. -/
theorem Accounts.step {reader next : Reader} {tokens : List Token}
    (h : Accounts reader.level reader.around tokens) {placed : Placed}
    (ht : placed.token.Lexical) (hstep : reader.step placed = .ok next) :
    Accounts next.level next.around (tokens ++ [placed.token]) := by
  obtain ⟨offset, token⟩ := placed
  cases token with
  | opening bracket =>
      obtain ⟨depth, -, hnext⟩ := bind_eq_ok.mp hstep
      cases hnext
      exact .inside h ⟨[], .nil, rfl⟩
  | closing bracket =>
      obtain ⟨level, around⟩ := reader
      simp only [Reader.step] at hstep
      split at hstep
      · next opened rest =>
          split at hstep
          · next hkind =>
              obtain ⟨items, hclose, hnext⟩ := bind_eq_ok.mp hstep
              cases hnext
              cases h with
              | inside houtside hhere =>
                  rw [← hkind, List.append_assoc]
                  exact houtside.push (.bracket opened.bracket (hhere.close hclose))
          · cases hstep
      · cases hstep
  | sigil sigil =>
      obtain ⟨depth, -, hnext⟩ := bind_eq_ok.mp hstep
      cases hnext
      exact h.wait offset sigil
  | text raw =>
      obtain ⟨content, hcontent, hnext⟩ := bind_eq_ok.mp hstep
      cases hnext
      exact h.push (.text (resolves_of_unescape ht hcontent))
  | unterminated => cases hstep
  | atom chars =>
      cases hstep
      exact h.push (derives_ofAtom chars)

theorem Accounts.foldlM {reader final : Reader} {tokens : List Token} {placed : List Placed}
    (h : Accounts reader.level reader.around tokens)
    (ht : ∀ one ∈ placed, one.token.Lexical)
    (hfold : placed.foldlM Reader.step reader = .ok final) :
    Accounts final.level final.around (tokens ++ placed.map Placed.token) := by
  induction placed generalizing reader tokens with
  | nil =>
      cases hfold
      simpa using h
  | cons first rest ih =>
      rw [List.foldlM_cons] at hfold
      obtain ⟨next, hstep, hrest⟩ := bind_eq_ok.mp hfold
      have hnext := ih (h.step (ht first (by simp)) hstep) (fun one ho => ht one (by simp [ho]))
        hrest
      rwa [List.append_assoc] at hnext

theorem Lexes.lexical {source : List Char} {tokens : List Token} (h : Lexes source tokens) :
    ∀ token ∈ tokens, token.Lexical := by
  induction h with
  | done => exact fun token ht => absurd ht List.not_mem_nil
  | blanks _ _ _ _ ih => exact ih
  | comment _ _ _ ih => exact ih
  | unterminated _ => exact List.forall_mem_singleton.mpr trivial
  | text hraw _ ih => exact List.forall_mem_cons.mpr ⟨hraw, ih⟩
  | opening _ _ ih | closing _ _ ih | functionMark _ ih | quoteMark _ ih | atom _ _ _ _ _ ih =>
      exact List.forall_mem_cons.mpr ⟨trivial, ih⟩

theorem derives_of_readChars {source : List Char} {forms : List Form}
    (h : readChars source = .ok forms) :
    DerivesAll ((tokens source).map Placed.token) forms := by
  obtain ⟨reader, hfold, hfinish⟩ := bind_eq_ok.mp h
  have hlexical : ∀ one ∈ tokens source, one.token.Lexical := fun one ho =>
    (lexes_iff.mpr rfl).lexical one.token (List.mem_map.mpr ⟨one, ho, rfl⟩)
  have hstart : Accounts Reader.start.level Reader.start.around [] := .top ⟨[], .nil, rfl⟩
  have hfinal := hstart.foldlM hlexical hfold
  obtain ⟨level, around⟩ := reader
  simp only [Reader.finish] at hfinish
  split at hfinish
  · cases hfinish
  · cases hfinal with
    | top hhere => exact hhere.close hfinish

/-! ## What is derived is read -/

/-- The reader does the same with either token. -/
def Token.Alike (token other : Token) : Prop :=
  ∀ (reader : Reader) (offset : Nat), reader.step ⟨offset, token⟩ = reader.step ⟨offset, other⟩

theorem Token.Alike.refl (token : Token) : token.Alike token := fun _ _ => rfl

theorem alike_of_ofAtom {chars others : List Char} (h : ofAtom chars = ofAtom others) :
    (Token.atom chars).Alike (.atom others) := fun reader offset => by
  rw [Reader.step_atom, Reader.step_atom, h]

theorem Resolves.alike {raw content : List Char} (h : Resolves raw content) :
    (Token.text raw).Alike
      (.text ((String.ofList content).toList.flatMap escapedChar)) := fun reader offset => by
  rw [Reader.step_text]
  simp only [Reader.step, h.unescape]
  rfl

theorem Denotes.ofAtom_eq {chars : List Char} {value : Int64} (h : Denotes chars value.toInt) :
    ofAtom chars = .int value := by
  rw [ofAtom, integerLiteral?_eq_some.mpr h]

theorem ofAtom_eq_symbol {chars : List Char} (h : ∀ value : Int64, ¬ Denotes chars value.toInt) :
    ofAtom chars = .symbol (String.ofList chars) := by
  have hliteral : Text.integerLiteral? chars = none := by
    rw [Option.eq_none_iff_forall_ne_some]
    exact fun value hsome => h value (integerLiteral?_eq_some.mp hsome)
  rw [ofAtom, hliteral]

mutual

theorem Derives.alike {tokens : List Token} {form : Form} :
    Derives tokens form → (∀ token ∈ tokens, token.Sound) →
      List.Forall₂ Token.Alike tokens form.spelling ∧ form.Readable
  | .int hdenotes, _ => by
      refine ⟨.cons (alike_of_ofAtom ?_) .nil, fun name hname => by simp [symbols] at hname⟩
      rw [hdenotes.ofAtom_eq, ofAtom, Text.integerLiteral?_integerChars]
  | .symbol hother, hsound => by
      constructor
      · rw [spelling, String.toList_ofList]
        exact .cons (.refl _) .nil
      · rw [← ofAtom_eq_symbol hother]
        exact readable_ofAtom (hsound _ (by simp))
  | .text hresolves, _ =>
      ⟨.cons hresolves.alike .nil, fun name hname => by simp [symbols] at hname⟩
  | .marked sigil hwithin, hsound => by
      obtain ⟨halike, hread⟩ := hwithin.alike fun token ht => hsound token (by simp [ht])
      cases sigil <;> exact ⟨.cons (.refl _) halike, hread⟩
  | .bracket bracket hwithin, hsound => by
      obtain ⟨halike, hread⟩ := hwithin.alike fun token ht => hsound token (by simp [ht])
      have hwhole := List.Forall₂.cons (Token.Alike.refl (.opening bracket))
        (List.rel_append halike (.cons (Token.Alike.refl (.closing bracket)) .nil))
      cases bracket with
      | round => exact ⟨hwhole, readable_list.mpr hread⟩
      | square => exact ⟨hwhole, readable_vector.mpr hread⟩

theorem DerivesAll.alike {tokens : List Token} {forms : List Form} :
    DerivesAll tokens forms → (∀ token ∈ tokens, token.Sound) →
      List.Forall₂ Token.Alike tokens (spellingOf forms) ∧ ∀ form ∈ forms, form.Readable
  | .nil, _ => ⟨.nil, fun form hf => absurd hf List.not_mem_nil⟩
  | .cons hone hmore, hsound => by
      obtain ⟨hfirst, hread⟩ := hone.alike fun token ht => hsound token (by simp [ht])
      obtain ⟨hrest, hreads⟩ := hmore.alike fun token ht => hsound token (by simp [ht])
      exact ⟨List.rel_append hfirst hrest, List.forall_mem_cons.mpr ⟨hread, hreads⟩⟩

end

theorem exists_foldlM_of_alike {placed : List Placed} {spelt : List Token}
    (h : List.Forall₂ Token.Alike (placed.map Placed.token) spelt) :
    ∃ others : List Placed, others.map Placed.token = spelt ∧
      ∀ reader, placed.foldlM Reader.step reader = others.foldlM Reader.step reader := by
  induction placed generalizing spelt with
  | nil =>
      cases h
      exact ⟨[], rfl, fun _ => rfl⟩
  | cons first rest ih =>
      cases h with
      | @cons _ token _ _ halike hrest =>
          obtain ⟨others, rfl, hfold⟩ := ih hrest
          refine ⟨⟨first.offset, token⟩ :: others, rfl, fun reader => ?_⟩
          rw [List.foldlM_cons, List.foldlM_cons, ← halike reader first.offset]
          exact congrArg _ (funext hfold)

theorem readChars_of_derives {source : List Char} {forms : List Form}
    (h : DerivesAll ((tokens source).map Placed.token) forms)
    (hnesting : ∀ form ∈ forms, form.nesting ≤ maxNesting) : readChars source = .ok forms := by
  have hsound : ∀ token ∈ (tokens source).map Placed.token, token.Sound := by
    intro token ht
    obtain ⟨placed, hplaced, rfl⟩ := List.mem_map.mp ht
    exact sound_of_mem_tokens hplaced
  obtain ⟨halike, hread⟩ := h.alike hsound
  obtain ⟨others, hothers, hfold⟩ := exists_foldlM_of_alike halike
  have hspelt := foldlM_spellingOf 0 [] (fun form hf => foldlM_spelling form (hread form hf))
    (by rw [Nat.zero_add]; exact nestingOf_le hnesting) [] hothers
  rw [readChars, Reader.start, Level.empty, hfold, hspelt, List.append_nil]
  show Except.ok forms.reverse.reverse = .ok forms
  rw [List.reverse_reverse]

mutual

theorem Derives.proper {tokens : List Token} {form : Form} :
    Derives tokens form → ∀ token ∈ tokens, token.Proper
  | .int _ | .symbol _ => List.forall_mem_singleton.mpr trivial
  | .text hresolves => List.forall_mem_singleton.mpr ⟨_, hresolves⟩
  | .marked _ hwithin => List.forall_mem_cons.mpr ⟨trivial, hwithin.proper⟩
  | .bracket _ hwithin => by
      refine List.forall_mem_cons.mpr ⟨trivial, List.forall_mem_append.mpr ⟨hwithin.proper, ?_⟩⟩
      exact List.forall_mem_singleton.mpr trivial

theorem DerivesAll.proper {tokens : List Token} {forms : List Form} :
    DerivesAll tokens forms → ∀ token ∈ tokens, token.Proper
  | .nil => fun _ ht => absurd ht List.not_mem_nil
  | .cons hone hmore => List.forall_mem_append.mpr ⟨hone.proper, hmore.proper⟩

end

/-- A text is cut into tokens in one way. It can be read just when its strings
end and use the four escapes only, its tokens are forms of the grammar one after
the other, and none of these nests too deeply; and then they are what is read. -/
theorem read_eq_ok_iff_derives (source : String) :
    (∃! spelt, Lexes source.toList spelt) ∧
      ∀ forms, read source = .ok forms ↔
        ∃ spelt, Lexes source.toList spelt ∧ (∀ token ∈ spelt, token.Proper) ∧
          DerivesAll spelt forms ∧ ∀ form ∈ forms, form.nesting ≤ maxNesting := by
  refine ⟨⟨_, lexes_iff.mpr rfl, fun spelt hspelt => (lexes_iff.mp hspelt).symm⟩, ?_⟩
  intro forms
  constructor
  · intro h
    have hderives := derives_of_readChars h
    refine ⟨_, lexes_iff.mpr rfl, hderives.proper, hderives, fun form hf => ?_⟩
    exact (wellFormed_of_readChars h form hf).2
  · rintro ⟨spelt, hlexes, -, hderives, hnesting⟩
    rw [← lexes_iff.mp hlexes] at hderives
    exact readChars_of_derives hderives hnesting

end Rulebook.Form
