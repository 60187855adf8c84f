import Rulebook.Proofs.Concatenation
import Rulebook.Proofs.Setups

/-!
# The setups of a text

The top-level forms of a text are dealt with in order, and all that passes from
one to the next is the number of the next token. A setup with a name takes one
number, the next in line, and any other form takes none. So the number at a
place tells how many named setups stand before it, whatever they were.

Numbers are machine words, so the count comes back to where it was after as many
setups as there are words. A text that fits into the memory of the machine has
fewer characters than that, let alone setups, and no two of its setups share a
token.

A newline keeps two texts apart for the reader. What the second one gives after
the first is therefore what it gives by itself, from the number at which the
first left off.
-/

namespace Rulebook

namespace Session

variable {α β : Type}

theorem perform_map (session : Session α) (f : α → β) (number : UInt64) :
    (f <$> session).perform number =
      ((session.perform number).1.map f, (session.perform number).2) := by
  rw [map_eq_pure_bind, perform_bind]
  rcases session.perform number with ⟨_ | _, _⟩ <;> rfl

/-- How a session taken for each of several items came to its results. -/
theorem perform_mapM_cons_ok {turn : α → Session β} {item : α} {items : List α}
    {results : List β} {number last : UInt64}
    (h : ((item :: items).mapM turn).perform number = (.ok results, last)) :
    ∃ first rest between, results = first :: rest ∧
      (turn item).perform number = (.ok first, between) ∧
      (items.mapM turn).perform between = (.ok rest, last) := by
  rw [List.mapM_cons, perform_bind] at h
  split at h
  · next first between hfirst =>
      rw [perform_bind] at h
      split at h
      · next rest after hrest =>
          cases h
          exact ⟨first, rest, between, rfl, hfirst, hrest⟩
      · cases h
  · cases h

end Session

/-! ## The size of a text -/

namespace Form

theorem length_le_byteLength (chars : List Char) : chars.length ≤ byteLength chars := by
  induction chars with
  | nil => exact Nat.le_refl 0
  | cons c chars ih =>
      have hsize := c.utf8Size_pos
      rw [List.length_cons, byteLength]
      omega

/-- Each token takes a character at least. -/
theorem Lexes.length_le {source : List Char} {tokens : List Token} (h : Lexes source tokens) :
    tokens.length ≤ source.length := by
  induction h with
  | done => exact Nat.le_refl 0
  | atom hany _ _ _ _ ih =>
      have hsome := List.length_pos_iff.mpr hany
      rw [List.length_append, List.length_cons]
      omega
  | _ => grind

theorem Derives.ne_nil {tokens : List Token} {form : Form} (h : Derives tokens form) :
    tokens ≠ [] := by
  cases h <;> simp

/-- Each form takes a token at least. -/
theorem DerivesAll.length_le {tokens : List Token} {forms : List Form}
    (h : DerivesAll tokens forms) : forms.length ≤ tokens.length := by
  induction forms generalizing tokens with
  | nil => exact Nat.zero_le _
  | cons form forms ih =>
      cases h with
      | cons hone hmore =>
          have hrest := ih hmore
          have hsome := List.length_pos_iff.mpr hone.ne_nil
          rw [List.length_append, List.length_cons]
          omega

/-- A text has no more forms than bytes. -/
theorem length_le_of_read {source : String} {forms : List Form} (h : read source = .ok forms) :
    forms.length ≤ source.utf8ByteSize := by
  obtain ⟨spelt, hlexes, -, hderives, -⟩ := ((read_eq_ok_iff_derives source).2 forms).mp h
  rw [← byteLength_toList]
  exact Nat.le_trans hderives.length_le (Nat.le_trans hlexes.length_le (length_le_byteLength _))

end Form

namespace Setup

/-! ## Top-level forms -/

/-- Whether a top-level form is a setup that has a name. -/
def isNamed (form : Form) : Bool :=
  match form.call? with
  | some ("setup", _ :: _) => true
  | _ => false

/-- The number of the next token when the form at a place has its turn, the
first form having its turn at `number`. After the largest number comes zero. -/
def numberAt (forms : List Form) (number : UInt64) (place : Nat) : UInt64 :=
  number + .ofNat ((forms.take place).countP isNamed)

theorem numberAt_zero (forms : List Form) (number : UInt64) : numberAt forms number 0 = number :=
  UInt64.add_zero number

theorem numberAt_cons (form : Form) (forms : List Form) (number : UInt64) (place : Nat) :
    numberAt (form :: forms) number (place + 1) =
      numberAt forms (number + if isNamed form then 1 else 0) place := by
  rw [numberAt, numberAt, List.take_succ_cons, List.countP_cons, UInt64.ofNat_add,
    UInt64.add_comm (UInt64.ofNat _), UInt64.add_assoc]
  cases isNamed form <;> rfl

theorem countP_take_lt {forms : List Form} {place later : Nat} {form : Form}
    (hform : forms[place]? = some form) (hnamed : isNamed form = true) (hlt : place < later) :
    (forms.take place).countP isNamed < (forms.take later).countP isNamed := by
  have hstep : (forms.take (place + 1)).countP isNamed =
      (forms.take place).countP isNamed + 1 := by
    rw [List.take_add_one, hform, Option.toList_some, List.countP_append, List.countP_singleton,
      if_pos hnamed]
  have hmore : (forms.take (place + 1)).countP isNamed ≤ (forms.take later).countP isNamed :=
    (List.take_sublist_take_left hlt).countP_le
  omega

/-- Where there are fewer forms than numbers, a named setup and what comes after it
have different numbers. -/
theorem numberAt_ne {forms : List Form} {place later : Nat} {form : Form}
    (hform : forms[place]? = some form) (hnamed : isNamed form = true) (hlt : place < later)
    (hfew : forms.length < UInt64.size) (number : UInt64) :
    numberAt forms number place ≠ numberAt forms number later := by
  intro heq
  have hcounts := congrArg UInt64.toNat ((UInt64.add_right_inj number).mp heq)
  have hless := countP_take_lt hform hnamed hlt
  have hall : (forms.take later).countP isNamed ≤ forms.length :=
    Nat.le_trans List.countP_le_length (List.length_take_le' _ _)
  rw [UInt64.toNat_ofNat_of_lt' (by omega), UInt64.toNat_ofNat_of_lt' (by omega)] at hcounts
  omega

theorem token_injective : Function.Injective token := by
  intro number other h
  have hname : tokenName number = tokenName other := by
    injection h
  have hchars := congrArg String.toList hname
  rw [toList_tokenName, toList_tokenName] at hchars
  have hdigits := congrArg (Nat.ofDigitChars 10 · 0) (List.append_cancel_left hchars)
  have hten : (1 : Nat) < 10 := by decide
  simp only [Nat.ofDigitChars_toDigits hten (Nat.le_refl 10)] at hdigits
  exact UInt64.toNat_inj.mp hdigits

/-- A top-level form is a setup with a name, one without, or no setup. -/
theorem topLevel_cases (form : Form) :
    form.head? ≠ some "setup" ∨ form = .call "setup" [] ∨
      ∃ name body, form = .call "setup" (name :: body) := by
  by_cases hhead : form.head? = some "setup"
  · obtain ⟨⟨head, args⟩, hcall, rfl⟩ := Option.map_eq_some_iff.mp hhead
    obtain rfl : form = .call "setup" args := by
      unfold Form.call? at hcall
      split at hcall
      · cases hcall
        rfl
      · cases hcall
    cases args with
    | nil => exact .inr (.inl rfl)
    | cons name body => exact .inr (.inr ⟨name, body, rfl⟩)
  · exact .inl hhead

variable {registry : Registry} {host : Host} {options : SetupOptions}

theorem expandTopLevel_of_head {form : Form} (h : form.head? ≠ some "setup") :
    expandTopLevel registry host options form = pure form := by
  unfold expandTopLevel
  split
  · next hcall => exact absurd (by rw [Form.head?, hcall]; rfl) h
  · next hcall => exact absurd (by rw [Form.head?, hcall]; rfl) h
  · rfl

theorem isNamed_of_head {form : Form} (h : form.head? ≠ some "setup") : isNamed form = false := by
  unfold isNamed
  split
  · next hcall => exact absurd (by rw [Form.head?, hcall]; rfl) h
  · rfl

theorem perform_expandTopLevel_named (name : Form) (body : List Form) (number : UInt64) :
    (expandTopLevel registry host options (.call "setup" (name :: body))).perform number =
      (((run registry host options name body).perform number).1.map Outcome.form,
        ((run registry host options name body).perform number).2) := by
  rw [← Session.perform_map, map_eq_pure_bind]
  rfl

/-- A setup that succeeds had its own token. -/
theorem of_run_ok {name : Form} {body : List Form} {outcome : Outcome} {number next : UInt64}
    (h : (run registry host options name body).perform number = (.ok outcome, next)) :
    next = number + 1 ∧ outcome.token = token number := by
  rw [perform_run] at h
  split at h
  · split at h
    · cases h
    · cases h
      exact ⟨rfl, rfl⟩
  · cases h

/-- A setup that fails has used up its token, unless it may not be run at all. -/
theorem of_run_error {name : Form} {body : List Form} {fault : Fault} {number next : UInt64}
    (h : (run registry host options name body).perform number = (.error fault, next)) :
    next = number + if host.lexical then 1 else 0 := by
  rw [perform_run] at h
  split at h
  · next hlexical =>
      rw [if_pos hlexical]
      split at h
      · cases h
        rfl
      · cases h
  · next hlexical =>
      rw [if_neg hlexical]
      cases h
      exact (UInt64.add_zero number).symm

theorem of_expandTopLevel_ok {form out : Form} {number next : UInt64}
    (h : (expandTopLevel registry host options form).perform number = (.ok out, next)) :
    next = number + if isNamed form then 1 else 0 := by
  rcases topLevel_cases form with hhead | rfl | ⟨name, body, rfl⟩
  · rw [expandTopLevel_of_head hhead] at h
    cases h
    rw [isNamed_of_head hhead]
    exact (UInt64.add_zero number).symm
  · cases h
  · rw [perform_expandTopLevel_named] at h
    obtain ⟨hresult, hnext⟩ := Prod.mk.inj h
    obtain ⟨outcome, houtcome, -⟩ := map_eq_ok.mp hresult
    exact hnext ▸ (of_run_ok (Prod.ext houtcome rfl)).1

/-! ## Texts -/

/-- A text whose top-level forms are these was dealt with to the end. There is
one form for each of them: a setup gives the code that it has with the token of
its number, and what is no setup stays as it is. -/
structure Ran (registry : Registry) (host : Host) (options : SetupOptions) (forms : List Form)
    (number : UInt64) (outs : List Form) (next : UInt64) : Prop where
  length : outs.length = forms.length
  next : next = numberAt forms number forms.length
  others : ∀ {place : Nat} {form : Form}, forms[place]? = some form →
    form.head? ≠ some "setup" → outs[place]? = some form
  setups : ∀ {place : Nat} {name : Form} {body : List Form},
    forms[place]? = some (.call "setup" (name :: body)) → ∃ outcome,
      (run registry host options name body).perform (numberAt forms number place) =
        (.ok outcome, numberAt forms number place + 1) ∧
      outcome.token = token (numberAt forms number place) ∧ outs[place]? = some outcome.form
  named : Form.call "setup" [] ∉ forms

/-- A text was dealt with as far as some setup, and that one failed. -/
def Stopped (registry : Registry) (host : Host) (options : SetupOptions) (forms : List Form)
    (number : UInt64) (fault : Fault) (last : UInt64) : Prop :=
  ∃ place,
    (∃ outs, Ran registry host options (forms.take place) number outs
      (numberAt forms number place)) ∧
    ((forms[place]? = some (.call "setup" []) ∧ fault = .argumentCount "setup" 1 0 ∧
        last = numberAt forms number place) ∨
      ∃ name body, forms[place]? = some (.call "setup" (name :: body)) ∧
        (run registry host options name body).perform (numberAt forms number place) =
          (.error fault, last) ∧
        last = numberAt forms number place + if host.lexical then 1 else 0)

variable {forms outs : List Form} {number next : UInt64}

theorem length_and_next_of_mapM
    (h : (forms.mapM (expandTopLevel registry host options)).perform number = (.ok outs, next)) :
    outs.length = forms.length ∧ next = numberAt forms number forms.length := by
  induction forms generalizing outs number with
  | nil =>
      cases h
      exact ⟨rfl, (numberAt_zero [] _).symm⟩
  | cons form forms ih =>
      obtain ⟨out, rest, between, rfl, hfirst, hrest⟩ := Session.perform_mapM_cons_ok h
      obtain ⟨hlength, hnext⟩ := ih hrest
      rw [of_expandTopLevel_ok hfirst] at hnext
      rw [List.length_cons, List.length_cons, numberAt_cons]
      exact ⟨congrArg (· + 1) hlength, hnext⟩

/-- How the form at a place was dealt with. -/
theorem expandTopLevel_of_mapM
    (h : (forms.mapM (expandTopLevel registry host options)).perform number = (.ok outs, next))
    {place : Nat} {form : Form} (hform : forms[place]? = some form) :
    ∃ out after, (expandTopLevel registry host options form).perform
        (numberAt forms number place) = (.ok out, after) ∧ outs[place]? = some out := by
  induction forms generalizing outs number place with
  | nil => cases hform
  | cons first forms ih =>
      obtain ⟨out, rest, between, rfl, hfirst, hrest⟩ := Session.perform_mapM_cons_ok h
      cases place with
      | zero =>
          cases hform
          exact ⟨out, between, (numberAt_zero _ number).symm ▸ hfirst, rfl⟩
      | succ place =>
          rw [numberAt_cons, ← of_expandTopLevel_ok hfirst]
          exact ih hrest hform

theorem ran_of_mapM
    (h : (forms.mapM (expandTopLevel registry host options)).perform number = (.ok outs, next)) :
    Ran registry host options forms number outs next where
  length := (length_and_next_of_mapM h).1
  next := (length_and_next_of_mapM h).2
  others := by
    intro place form hform hhead
    obtain ⟨out, after, hout, hplace⟩ := expandTopLevel_of_mapM h hform
    rw [expandTopLevel_of_head hhead] at hout
    cases hout
    exact hplace
  setups := by
    intro place name body hform
    obtain ⟨out, after, hout, hplace⟩ := expandTopLevel_of_mapM h hform
    rw [perform_expandTopLevel_named] at hout
    obtain ⟨hresult, hafter⟩ := Prod.mk.inj hout
    obtain ⟨outcome, houtcome, rfl⟩ := map_eq_ok.mp hresult
    have hrun : (run registry host options name body).perform (numberAt forms number place) =
        (.ok outcome, after) := Prod.ext houtcome hafter
    obtain ⟨rfl, htoken⟩ := of_run_ok hrun
    exact ⟨outcome, hrun, htoken, hplace⟩
  named := by
    intro hmem
    obtain ⟨place, hform⟩ := List.getElem?_of_mem hmem
    obtain ⟨out, after, hout, -⟩ := expandTopLevel_of_mapM h hform
    cases hout

theorem of_expandTopLevel_error {form : Form} {fault : Fault} {last : UInt64}
    (h : (expandTopLevel registry host options form).perform number = (.error fault, last)) :
    (form = .call "setup" [] ∧ fault = .argumentCount "setup" 1 0 ∧ last = number) ∨
      ∃ name body, form = .call "setup" (name :: body) ∧
        (run registry host options name body).perform number = (.error fault, last) := by
  rcases topLevel_cases form with hhead | rfl | ⟨name, body, rfl⟩
  · rw [expandTopLevel_of_head hhead] at h
    cases h
  · cases h
    exact .inl ⟨rfl, rfl, rfl⟩
  · refine .inr ⟨name, body, rfl, ?_⟩
    rw [perform_expandTopLevel_named] at h
    rcases hrun : (run registry host options name body).perform number with ⟨_ | _, _⟩
    · rw [hrun] at h
      cases h
      rfl
    · rw [hrun] at h
      cases h

/-- The first form that fails is where the text stops. -/
theorem exists_of_mapM_error {fault : Fault} {last : UInt64}
    (h : (forms.mapM (expandTopLevel registry host options)).perform number =
      (.error fault, last)) :
    ∃ place form, forms[place]? = some form ∧
      (∃ outs, ((forms.take place).mapM (expandTopLevel registry host options)).perform number =
        (.ok outs, numberAt forms number place)) ∧
      (expandTopLevel registry host options form).perform (numberAt forms number place) =
        (.error fault, last) := by
  induction forms generalizing number with
  | nil => cases h
  | cons form forms ih =>
      rw [List.mapM_cons, Session.perform_bind] at h
      split at h
      · next out between hfirst =>
          rw [Session.perform_bind] at h
          split at h
          · cases h
          · next other after hrest =>
              cases h
              obtain ⟨place, failing, hplace, ⟨outs, houts⟩, hfails⟩ := ih hrest
              have hnumber : numberAt (form :: forms) number (place + 1) =
                  numberAt forms between place := by
                rw [numberAt_cons, of_expandTopLevel_ok hfirst]
              refine ⟨place + 1, failing, hplace, ⟨out :: outs, ?_⟩, hnumber ▸ hfails⟩
              rw [List.take_succ_cons, List.mapM_cons, Session.perform_bind, hfirst]
              show Session.perform (_ >>= _) between = _
              rw [Session.perform_bind, houts, hnumber]
              rfl
      · next other after hfirst =>
          cases h
          refine ⟨0, form, rfl, ?_⟩
          rw [numberAt_zero]
          exact ⟨⟨[], rfl⟩, hfirst⟩

theorem stopped_of_mapM {fault : Fault} {last : UInt64}
    (h : (forms.mapM (expandTopLevel registry host options)).perform number =
      (.error fault, last)) :
    Stopped registry host options forms number fault last := by
  obtain ⟨place, form, hform, ⟨outs, houts⟩, hfails⟩ := exists_of_mapM_error h
  refine ⟨place, ⟨outs, ran_of_mapM houts⟩, ?_⟩
  rcases of_expandTopLevel_error hfails with ⟨rfl, hfault, hlast⟩ | ⟨name, body, rfl, hrun⟩
  · exact .inl ⟨hform, hfault, hlast⟩
  · exact .inr ⟨name, body, hform, hrun, of_run_error hrun⟩

theorem runSource_of_read {source : String} (h : Form.read source = .ok forms) :
    runSource registry host options source =
      forms.mapM (expandTopLevel registry host options) := by
  rw [runSource, h]

/-- The setups of one text come before those of another that starts on a new
line. -/
theorem runSource_append_newline {first second : String} {others : List Form}
    (hfirst : Form.read first = .ok forms) (hsecond : Form.read second = .ok others) :
    runSource registry host options (first ++ "\n" ++ second) = (do
      let outs ← runSource registry host options first
      (outs ++ ·) <$> runSource registry host options second) := by
  have hread : Form.read (first ++ "\n" ++ second) = .ok (forms ++ others) := by
    rw [Form.read] at hfirst hsecond ⊢
    rw [String.toList_append, String.toList_append, List.append_assoc]
    have hwhole := Form.readChars_append_newline hfirst second.toList
    rw [hsecond] at hwhole
    exact hwhole
  rw [runSource_of_read hread, runSource_of_read hfirst, runSource_of_read hsecond,
    List.mapM_append]
  simp only [map_eq_pure_bind]

/-- Texts that can be read are dealt with one after the other, if a newline
stands between them. When the first one succeeds, the second gives what it gives
by itself from the number at which the first left off, after the forms of the
first; when the first one fails, so does the whole, in the same way. A text
gives one form for each of its own in order, only setups are changed, and each
setup that has a name takes the next number for its token, from the number of the
first on and, past the largest, from zero. No two setups of a text that has fewer
bytes than there are numbers have one token. -/
theorem runSource_composes (registry : Registry) (host : Host) (options : SetupOptions)
    (number : UInt64) {first second : String} {forms others : List Form}
    (hfirst : Form.read first = .ok forms) (hsecond : Form.read second = .ok others) :
    (∀ outs next,
      (runSource registry host options first).perform number = (.ok outs, next) →
      (runSource registry host options (first ++ "\n" ++ second)).perform number =
        (((runSource registry host options second).perform next).1.map (outs ++ ·),
          ((runSource registry host options second).perform next).2) ∧
      Ran registry host options forms number outs next) ∧
    (∀ fault last,
      (runSource registry host options first).perform number = (.error fault, last) →
      (runSource registry host options (first ++ "\n" ++ second)).perform number =
        (.error fault, last) ∧
      Stopped registry host options forms number fault last) ∧
    (first.utf8ByteSize < UInt64.size → ∀ place later name body,
      forms[place]? = some (.call "setup" (name :: body)) → place < later →
      token (numberAt forms number place) ≠ token (numberAt forms number later)) := by
  rw [runSource_append_newline hfirst hsecond, Session.perform_bind]
  refine ⟨fun outs next hrun => ?_, fun fault last hrun => ?_, ?_⟩
  · rw [hrun]
    refine ⟨Session.perform_map _ _ _, ran_of_mapM ?_⟩
    rw [← runSource_of_read hfirst, hrun]
  · rw [hrun]
    refine ⟨rfl, stopped_of_mapM ?_⟩
    rw [← runSource_of_read hfirst, hrun]
  · intro hsize place later name body hform hlt heq
    have hfew := Nat.lt_of_le_of_lt (Form.length_le_of_read hfirst) hsize
    exact numberAt_ne hform rfl hlt hfew number (token_injective heq)

/-- A setup that leaves at once. -/
def quitting (name : String) : Form := .call "setup" [.symbol name, .call ":quit" []]

/-- The code of a setup that leaves at once. -/
def leftAtOnce (number : UInt64) : Form :=
  HostCode.catchFor (token number) [HostCode.throwTo (token number) Form.nil]

theorem perform_quitting (name : String) (number : UInt64) :
    (expandTopLevel Catalogue.registry {} {} (quitting name)).perform number =
      (.ok (leftAtOnce number), number + 1) := by
  rfl

/-- The largest number is followed by zero. -/
theorem runSource_composes_of_quits :
    let last : UInt64 := 18446744073709551615
    (runSource Catalogue.registry {} {} "(setup a (:quit)) (setup b (:quit)) ; c").perform last =
      (.ok [leftAtOnce last, leftAtOnce 0], 1) ∧
    token last ≠ token 0 ∧
    (runSource Catalogue.registry {} {}
      ("(setup a (:quit)) (setup b (:quit)) ; c" ++ "\n" ++ "x (setup d (:quit))")).perform last =
        (.ok [leftAtOnce last, leftAtOnce 0, .symbol "x", leftAtOnce 1], 2) := by
  intro last
  have hwraps : last + 1 = 0 := by decide
  have hfirst : Form.read "(setup a (:quit)) (setup b (:quit)) ; c" =
      .ok [quitting "a", quitting "b"] := by rfl
  have hsecond : Form.read "x (setup d (:quit))" = .ok [.symbol "x", quitting "d"] := by rfl
  have hone : (runSource Catalogue.registry {} {}
      "(setup a (:quit)) (setup b (:quit)) ; c").perform last =
        (.ok [leftAtOnce last, leftAtOnce 0], 1) := by
    rw [runSource_of_read hfirst, List.mapM_cons, Session.perform_bind, perform_quitting]
    dsimp only
    rw [hwraps, Session.perform_bind, List.mapM_cons, Session.perform_bind, perform_quitting]
    rfl
  have htwo : (runSource Catalogue.registry {} {} "x (setup d (:quit))").perform 1 =
      (.ok [.symbol "x", leftAtOnce 1], 2) := by
    rw [runSource_of_read hsecond, List.mapM_cons, expandTopLevel_of_head (by decide), pure_bind,
      List.mapM_cons]
    simp only [bind_assoc]
    rw [Session.perform_bind, perform_quitting]
    rfl
  obtain ⟨hcomposes, -, happart⟩ :=
    runSource_composes Catalogue.registry {} {} last hfirst hsecond
  have hapart := happart (by decide) 0 1 _ _ rfl Nat.one_pos
  have hnumber : numberAt [quitting "a", quitting "b"] last 1 = 0 := by decide
  rw [numberAt_zero, hnumber] at hapart
  refine ⟨hone, hapart, ?_⟩
  rw [(hcomposes _ _ hone).1, htwo]
  rfl

end Setup

end Rulebook
