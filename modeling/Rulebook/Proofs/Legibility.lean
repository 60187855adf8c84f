import Rulebook.Proofs.Finality
import Rulebook.Proofs.Grammar
import Rulebook.Proofs.Sources

/-!
# The code of a text can be read again

The reader takes only some names for symbols: a name with a blank or a bracket
in it would be cut apart, and one that spells an integer would become one. The
forms of a text are therefore made of readable names to begin with, and the
question is what expansion adds to them. It writes names of the host's own, it
names modes, maps and hooks by putting an ending to a name that it was given,
and it numbers the tokens of early exits. All of these hold a letter, and a
name with a letter in it is no integer.

Nothing else makes a symbol. So the property passes through the rules as any
other that they keep up, and through whole setups, and the code of a text is
once more something that a text can say, as long as it is not nested too
deeply.
-/

namespace Rulebook

namespace Form

/-! ## Names -/

/-- An integer literal is made of digits and a sign. -/
theorem Denotes.isDigit_or_sign {chars : List Char} {number : Int} (h : Denotes chars number) :
    ∀ c ∈ chars, c.isDigit = true ∨ c = '+' ∨ c = '-' := by
  intro c hc
  cases h with
  | unsigned _ heach => exact .inl (heach c hc)
  | plus _ heach =>
      rcases List.mem_cons.mp hc with rfl | hc
      · exact .inr (.inl rfl)
      · exact .inl (heach c hc)
  | minus _ heach =>
      rcases List.mem_cons.mp hc with rfl | hc
      · exact .inr (.inr rfl)
      · exact .inl (heach c hc)

/-- Whether a character keeps a name from being an integer literal. -/
def isLetter (c : Char) : Bool := !c.isDigit && c != '+' && c != '-'

theorem isReadable_of_isLetter {name : String} {c : Char}
    (hchars : ∀ one ∈ name.toList, isAtomChar one = true) (hc : c ∈ name.toList)
    (hletter : isLetter c = true) : isReadable name = true := by
  rw [isReadable_iff]
  refine ⟨List.ne_nil_of_mem hc, hchars, ?_⟩
  rw [Option.eq_none_iff_forall_ne_some]
  intro value hvalue
  simp only [isLetter, Bool.and_eq_true, Bool.not_eq_true', bne_iff_ne, ne_eq] at hletter
  obtain ⟨⟨hdigit, hplus⟩, hminus⟩ := hletter
  rcases (integerLiteral?_eq_some.mp hvalue).isDigit_or_sign c hc with h | h | h
  · rw [hdigit] at h
    cases h
  · exact hplus h
  · exact hminus h

/-- A readable name with an ending that holds a letter. -/
theorem isReadable_append {name ending : String} (h : isReadable name = true)
    (hending : ending.toList.all isAtomChar = true) (hletter : ending.toList.any isLetter = true) :
    isReadable (name ++ ending) = true := by
  obtain ⟨c, hc, hletter⟩ := List.any_eq_true.mp hletter
  refine isReadable_of_isLetter (c := c) (fun one ho => ?_) ?_ hletter
  · rw [String.toList_append] at ho
    rcases List.mem_append.mp ho with ho | ho
    · exact (isReadable_iff.mp h).2.1 one ho
    · exact List.all_eq_true.mp hending one ho
  · rw [String.toList_append]
    exact List.mem_append_right _ hc

theorem isReadable_token (number : UInt64) : isReadable (Setup.tokenName number) = true := by
  refine isReadable_of_isLetter (c := 's') (fun one ho => ?_) ?_ rfl
  · rw [Setup.toList_tokenName] at ho
    rcases List.mem_append.mp ho with ho | ho
    · have hfixed : "setup-quit-".toList.all isAtomChar = true := by decide
      exact List.all_eq_true.mp hfixed one ho
    · exact isAtomChar_of_isDigit (Nat.isDigit_of_mem_toDigits (by decide) (by decide) ho)
  · rw [Setup.toList_tokenName]
    exact List.mem_append_left _ (by decide)

/-- Rules name things readably. -/
theorem naming_readable : Naming fun name => isReadable name = true where
  written := by decide +kernel
  ended := by
    have hendings : ∀ ending ∈ ["-mode", "-map", "-hook"],
        ending.toList.all isAtomChar = true ∧ ending.toList.any isLetter = true := by decide
    intro name ending hname hending
    obtain ⟨hall, hany⟩ := hendings ending hending
    exact isReadable_append hname hall hany

end Form

namespace Setup

theorem isReadable_of_contains {id : String} (h : Catalogue.registry.contains id = true) :
    Form.isReadable id = true := by
  have hrules : ∀ rule ∈ Catalogue.rules, Form.isReadable rule.name = true := by decide +kernel
  obtain ⟨entry, hfind⟩ := Option.isSome_iff_exists.mp h
  obtain ⟨rule, hrule, rfl, -⟩ := Catalogue.exists_rule_of_find? hfind
  exact hrules rule hrule

variable {host : Host} {options : SetupOptions} {name : Form} {body : List Form}
  {number next : UInt64}

/-- The code of a setup is readable if the setup and its context are. -/
theorem readable_of_run (hframe : host.frame.Keeps Form.Readable) (hname : name.Readable)
    (hbody : ∀ form ∈ body, form.Readable) {outcome : Outcome}
    (h : (run Catalogue.registry host options name body).perform number = (.ok outcome, next)) :
    outcome.form.Readable := by
  have htoken : (token number).Readable :=
    Form.names_symbol.mpr (Form.isReadable_token number)
  have hrooted := names_rooted (fun _ => isReadable_of_contains) hname hbody options.rootRule
  let settings : Settings := ⟨Catalogue.registry, options.limits, options.tracing⟩
  have hbuiltin : settings.registry = Catalogue.registry := by dsimp only [settings]
  have hnative : settings.registry.Native := hbuiltin ▸ Catalogue.native_registry
  exact keeps_run Form.naming_readable.upkeep.toComposing (Form.naming_readable.keeps hnative _)
    (hframe.bind .quit htoken) htoken hrooted h

/-- A form of a text gives a readable form, whether it is a setup or not. -/
theorem readable_of_expandTopLevel (hframe : host.frame.Keeps Form.Readable) {form out : Form}
    (hform : form.Readable)
    (h : (expandTopLevel Catalogue.registry host options form).perform number =
      (.ok out, next)) : out.Readable := by
  rcases topLevel_cases form with hhead | rfl | ⟨name, body, rfl⟩
  · rw [expandTopLevel_of_head hhead] at h
    cases h
    exact hform
  · cases h
  · rw [perform_expandTopLevel_named] at h
    obtain ⟨hresult, hnext⟩ := Prod.mk.inj h
    obtain ⟨outcome, houtcome, rfl⟩ := map_eq_ok.mp hresult
    obtain ⟨hname, hbody⟩ := List.forall_mem_cons.mp (Form.names_call.mp hform).2
    exact readable_of_run hframe hname hbody (Prod.ext houtcome hnext)

/-- The code of a text with the built-in rules is made of names that are read as
symbols, all through and under quotes too. So each form of it that is not nested
more deeply than is read has a text, and the text reads back as the form. -/
theorem runSource_reads_back (options : SetupOptions) {source : String} {number next : UInt64}
    {out : List Form}
    (h : (runSource Catalogue.registry {} options source).perform number = (.ok out, next)) :
    ∀ form ∈ out,
      (∀ name ∈ form.symbols, Form.isReadable name = true) ∧
      (form.nesting ≤ Form.maxNesting → Form.readOne form.render = .ok form) := by
  cases hread : Form.read source with
  | error cause =>
      rw [runSource, hread] at h
      cases h
  | ok forms =>
      rw [runSource_of_read hread] at h
      intro form hform
      have hreadable : form.Readable := by
        obtain ⟨place, hplace⟩ := List.getElem?_of_mem hform
        have hlength := (length_and_next_of_mapM h).1
        obtain ⟨hlt, -⟩ := List.getElem?_eq_some_iff.mp hplace
        have hsource : forms[place]? = some forms[place] := List.getElem?_eq_getElem (by omega)
        obtain ⟨made, after, hmade, hsame⟩ := expandTopLevel_of_mapM h hsource
        cases hplace.symm.trans hsame
        have hwell := Form.wellFormed_of_readChars hread _ (List.mem_of_getElem? hsource)
        exact readable_of_expandTopLevel (.empty _) hwell.1 hmade
      refine ⟨hreadable, fun hnesting => ?_⟩
      have hone : ∀ only ∈ [form], only.WellFormed :=
        List.forall_mem_singleton.mpr ⟨hreadable, hnesting⟩
      rw [Form.readOne_eq_ok, Form.read, Form.toList_render]
      exact Form.readChars_spacedChars hone

/-- A setup that needs a program and then adds its mode to a hook. -/
def needing : Form :=
  .call "setup" [.symbol "foo", .call ":needs" [.text "rg"], .call ":hook-into" [.symbol "text"]]

/-- The code of that setup with the fourth token. -/
def neededCode : Form :=
  HostCode.catchFor (token 3)
    [.call "unless" [.call "executable-find" [.text "rg"], HostCode.throwTo (token 3) Form.nil],
     .call "add-hook" [.quote (.symbol "text-hook"), .function (.symbol "foo-mode")]]

theorem runSource_reads_back_of_needing :
    (runSource Catalogue.registry {} {}
      "(setup foo (:needs \"rg\") (:hook-into text))").perform 3 = (.ok [neededCode], 4) ∧
    Form.readOne neededCode.render = .ok neededCode := by
  have hread : Form.read "(setup foo (:needs \"rg\") (:hook-into text))" = .ok [needing] := by
    rfl
  have hturn : (expandTopLevel Catalogue.registry {} {} needing).perform 3 =
      (.ok neededCode, 4) := by
    rfl
  have hrun : (runSource Catalogue.registry {} {}
      "(setup foo (:needs \"rg\") (:hook-into text))").perform 3 = (.ok [neededCode], 4) := by
    rw [runSource_of_read hread, List.mapM_cons, Session.perform_bind, hturn]
    rfl
  obtain ⟨-, hback⟩ := runSource_reads_back {} hrun neededCode (by simp)
  exact ⟨hrun, hback (by decide)⟩

end Setup

end Rulebook
