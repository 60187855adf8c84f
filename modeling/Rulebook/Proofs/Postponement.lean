import Rulebook.Proofs.Finality

/-!
# Early exits and code that runs later

An early exit throws to the catch around its setup, and the throw is of use
only while that catch is there to receive it. The host evaluates a `lambda` and
what waits for a feature at some later time, when the catch may be gone. Nothing
keeps an exit from ending up in such code: `(:when-loaded (:quit))` puts one
behind the loading of a feature.

It ends up there only if it is asked for there. Call a form quiet if no rule in
it asks for an exit, and prompt if whatever it holds for later is quiet. Then
expansion keeps forms quiet and keeps them prompt. Two things have to be taken
into account. A list that stands at the head of another list may become a name,
and that name may be one that postpones, so a list with such a head counts as
one that may postpone. And a throw may be in a form from the start. Its tag has
to be given outright, and it must not be the token.
-/

namespace Rulebook

namespace Form

/-! ## Parts of a form -/

/-- Every part outside quotes and vectors is right. -/
def Throughout (right : Form → Prop) (form : Form) : Prop :=
  ∀ part, Exposed part form → right part

section Throughout

variable {right : Form → Prop} {form : Form}

theorem throughout_iff :
    Throughout right form ↔ right form ∧ ∀ inner ∈ form.inside, Throughout right inner := by
  constructor
  · intro h
    refine ⟨h form (.root _), fun inner hinner part hexposed => ?_⟩
    exact h part (hexposed.trans (.inner hinner))
  · rintro ⟨hform, hinside⟩ part hexposed
    rcases exposed_iff.mp hexposed with rfl | ⟨inner, hinner, hexposed⟩
    · exact hform
    · exact hinside inner hinner part hexposed

theorem throughout_list {items : List Form} :
    Throughout right (.list items) ↔
      right (.list items) ∧ ∀ item ∈ items, Throughout right item := by
  rw [throughout_iff, inside]

theorem throughout_function {inner : Form} :
    Throughout right (.function inner) ↔ right (.function inner) ∧ Throughout right inner := by
  rw [throughout_iff, inside, List.forall_mem_singleton]

theorem throughout_of_inside (hright : right form) (hinside : form.inside = []) :
    Throughout right form := by
  rw [throughout_iff, hinside]
  exact ⟨hright, fun _ hinner => absurd hinner List.not_mem_nil⟩

/-- What holds throughout passes to code if it is right of the lists that are
made and of everything but lists and vectors. -/
theorem composing_throughout (hsymbol : ∀ name, right (.symbol name))
    (hquote : ∀ inner, right (.quote inner)) (hmark : ∀ inner, right (.function inner))
    (hcall : ∀ {head : String} {args : List Form}, head ∈ HostCode.heads →
      right (.call head args))
    (hcalls : ∀ {items : List Form},
      (∀ item ∈ items, ∃ head ∈ HostCode.heads, ∃ args, item = .call head args) →
        right (.list items)) : Composing (Throughout right) where
  name _ := throughout_of_inside (hsymbol _) rfl
  ended _ _ := throughout_of_inside (hsymbol _) rfl
  quote _ := throughout_of_inside (hquote _) rfl
  unquote _ := throughout_of_inside (hsymbol _) rfl
  function hname := throughout_function.mpr ⟨hmark _, hname⟩
  call hhead hargs := by
    refine throughout_list.mpr ⟨hcall hhead, List.forall_mem_cons.mpr ⟨?_, hargs⟩⟩
    exact throughout_of_inside (hsymbol _) rfl
  calls hitems :=
    throughout_list.mpr
      ⟨hcalls fun item hi => (hitems item hi).2, fun item hi => (hitems item hi).1⟩
  items hlist := (throughout_list.mp hlist).2

end Throughout

/-- `Unquoted part form`: `part` stands in `form` outside quotes. -/
inductive Unquoted : Form → Form → Prop
  | root (form : Form) : Unquoted form form
  | item {part form : Form} {items : List Form} (mem : part ∈ items)
      (within : Unquoted (.list items) form) : Unquoted part form
  | cell {part form : Form} {items : List Form} (mem : part ∈ items)
      (within : Unquoted (.vector items) form) : Unquoted part form
  | marked {part form : Form} (within : Unquoted (.function part) form) : Unquoted part form

theorem Exposed.unquoted {part form : Form} (h : Exposed part form) : Unquoted part form := by
  induction h with
  | root form => exact .root form
  | item hmem _ ih => exact .item hmem ih
  | marked _ ih => exact .marked ih

theorem Unquoted.exposed_or_vector {part form : Form} (h : Unquoted part form) :
    Exposed part form ∨
      ∃ items, Exposed (.vector items) form ∧ Unquoted part (.vector items) := by
  induction h with
  | root form => exact .inl (.root form)
  | item hmem _ ih =>
      rcases ih with hexposed | ⟨items, hexposed, hinner⟩
      · exact .inl (.item hmem hexposed)
      · exact .inr ⟨items, hexposed, .item hmem hinner⟩
  | cell hmem _ ih =>
      rcases ih with hexposed | ⟨items, hexposed, hinner⟩
      · exact .inr ⟨_, hexposed, .cell hmem (.root _)⟩
      · exact .inr ⟨items, hexposed, .cell hmem hinner⟩
  | marked _ ih =>
      rcases ih with hexposed | ⟨items, hexposed, hinner⟩
      · exact .inl (.marked hexposed)
      · exact .inr ⟨items, hexposed, .marked hinner⟩

theorem Unquoted.symbols_subset {part form : Form} (h : Unquoted part form) :
    part.symbols ⊆ form.symbols := by
  induction h with
  | root form => exact List.Subset.refl _
  | item hmem _ ih => exact fun name hname => ih (mem_symbolsOf.mpr ⟨_, hmem, hname⟩)
  | cell hmem _ ih => exact fun name hname => ih (mem_symbolsOf.mpr ⟨_, hmem, hname⟩)
  | marked _ ih => exact ih

/-- The host evaluates the form, or what it holds, at some later time. -/
def Postpones (form : Form) : Prop :=
  ∃ head ∈ HostCode.postponing, ∃ args, form = .call head args

/-- The form is a throw to the token. -/
def ThrowsTo (token form : Form) : Prop := ∃ rest, form = .call "throw" (.quote token :: rest)

end Form

/-! ## Heads that stay what they are -/

/-- A list whose head does not change: it has none, it is no rule's name, or it
is a list of the same kind. -/
inductive Registry.Firm (registry : Registry) : Form → Prop
  | empty : Firm registry (.list [])
  | named {name : String} {args : List Form} (unknown : registry.contains name = false) :
      Firm registry (.call name args)
  | nested {call rest : List Form} (within : Firm registry (.list call)) :
      Firm registry (.list (.list call :: rest))
  | other {first : Form} {rest : List Form} (unnamed : ∀ name, first ≠ .symbol name)
      (unlisted : ∀ items, first ≠ .list items) : Firm registry (.list (first :: rest))

theorem Registry.Firm.invocation? {registry : Registry} {form : Form} (h : registry.Firm form) :
    registry.invocation? form = none := by
  cases h with
  | empty => rfl
  | named hunknown => exact invocation?_call hunknown _
  | nested _ => rfl
  | @other first rest hunnamed _ =>
      by_contra hcall
      obtain ⟨name, hname, -⟩ := invocation?_ne_none_iff.mp hcall
      exact hunnamed name hname

namespace Settings

variable {settings : Settings} {frame : Frame}

/-- Only a symbol becomes a symbol, invocations apart. -/
theorem eq_symbol_of_idle {room : Nat} {form : Form} {name : String}
    (hidle : settings.registry.invocation? form = none)
    (h : settings.outcome room frame form = .ok (.symbol name)) : form = .symbol name := by
  refine eq_symbol_of_outcome (fun items heq => ?_) h
  subst heq
  obtain ⟨results, hresults⟩ := exists_list_of_outcome hidle h
  cases hresults

/-- Only a quoted form becomes a quoted form, invocations apart. -/
theorem eq_quote_of_idle {room : Nat} {form inner : Form}
    (hidle : settings.registry.invocation? form = none)
    (h : settings.outcome room frame form = .ok (.quote inner)) : form = .quote inner := by
  cases room with
  | zero => cases h
  | succ room =>
      obtain ⟨rested, hrest, -, hdescends⟩ := outcome_cases h
      rw [rest_of_idle hidle] at hrest
      cases hrest
      cases hdescends
      rfl

/-- A firm list stays one. -/
theorem firm_of_outcome {room : Nat} {items : List Form} {out : Form}
    (hfirm : settings.registry.Firm (.list items))
    (h : settings.outcome room frame (.list items) = .ok out) : settings.registry.Firm out := by
  induction room generalizing items out with
  | zero => cases h
  | succ room ih =>
      obtain ⟨rested, hrest, -, hdescends⟩ := outcome_cases h
      rw [rest_of_idle hfirm.invocation?] at hrest
      cases hrest
      cases hdescends with
      | items _ heach =>
          cases heach with
          | nil => exact .empty
          | @cons _ result _ _ hfirst _ =>
              cases hfirm with
              | named hunknown =>
                  cases room with
                  | zero => cases hfirst
                  | succ room =>
                      rw [outcome_symbol] at hfirst
                      cases hfirst
                      exact .named hunknown
              | nested hinner =>
                  obtain ⟨results, rfl⟩ := exists_list_of_outcome hinner.invocation? hfirst
                  exact .nested (ih hinner hfirst)
              | other hunnamed hunlisted =>
                  refine .other (fun name heq => ?_) (fun inner heq => ?_)
                  · subst heq
                    exact hunnamed name (eq_symbol_of_outcome hunlisted hfirst)
                  · subst heq
                    obtain ⟨call, hcall⟩ := eq_list_of_outcome hfirst
                    exact hunlisted call hcall
      | data _ => exact hfirm
      | passed hlist _ => exact absurd rfl (hlist _)

/-- What holds throughout a form that invokes no rule holds throughout its
outcome, if it is right of the lists there. -/
theorem throughout_of_descends {R right : Form → Prop} {room : Nat} {rested out : Form}
    (h : settings.Keeps R (Form.Throughout right) room) (hframe : frame.Keeps R)
    (hmark : ∀ inner, right (.function inner))
    (hlist : ∀ {items results : List Form}, rested = .list items →
      List.Forall₂ (fun item result => settings.outcome room frame item = .ok result) items
        results → right (.list results))
    (hrested : Form.Throughout right rested) (hdescends : settings.Descends room frame rested out) :
    Form.Throughout right out := by
  cases hdescends with
  | items _ heach =>
      refine Form.throughout_list.mpr ⟨hlist rfl heach, fun result hresult => ?_⟩
      obtain ⟨item, hitem, hended⟩ := exists_mem_of_forall₂ heach.flip hresult
      exact h hframe ((Form.throughout_list.mp hrested).2 item hitem) hended
  | marked hinner =>
      refine Form.throughout_function.mpr ⟨hmark _, ?_⟩
      exact h hframe (Form.throughout_function.mp hrested).2 hinner
  | data _ => exact hrested
  | passed _ _ => exact hrested

end Settings

/-! ## The built-in rules -/

namespace Catalogue

/-- The rules that ask for an early exit. -/
def leavingRules : List String :=
  [":require", ":needs", ":if-package", ":if-feature", ":if-host", ":only-if", ":quit"]

/-- The heads of the lists that make code for later of what they hold. -/
def postponingHeads : List String :=
  HostCode.postponing ++ [":bind", ":unbind", ":rebind", ":local-hook", ":local-set",
    ":also-load", ":when-loaded", ":load-after"]

theorem leaves_eq_false {id : String} {entry : Entry} (h : registry.find? id = some entry)
    (hid : id ∉ leavingRules) : entry.action.leaves = false := by
  have hrules : ∀ rule ∈ rules, rule.name ∉ leavingRules → rule.action.leaves = false := by
    decide
  obtain ⟨rule, hrule, rfl, hrecords⟩ := exists_rule_of_find? h
  rw [hrecords.action]
  exact hrules rule hrule hid

theorem postpones_eq_false {id : String} {entry : Entry} (h : registry.find? id = some entry)
    (hid : id ∉ postponingHeads) : entry.postpones = false := by
  have hrules : ∀ rule ∈ rules, rule.name ∉ postponingHeads →
      (rule.options.deferred || rule.action.postpones) = false := by
    decide
  obtain ⟨rule, hrule, rfl, hrecords⟩ := exists_rule_of_find? h
  rw [Entry.postpones, hrecords.action, hrecords.deferred]
  exact hrules rule hrule hid

end Catalogue

namespace Form

variable {token form : Form}

/-! ## Quiet forms -/

/-- A form that by itself leads to no exit to the token. -/
structure Restrained (token form : Form) : Prop where
  /-- It has no head that may still become anything. -/
  head : ∀ call rest, form = .list (.list call :: rest) →
    Catalogue.registry.invocation? (.list call) = none
  /-- It invokes no rule that asks for an exit. -/
  stays : ∀ name args, form = .call name args → name ∉ Catalogue.leavingRules
  /-- If it is a throw, its tag is given outright and is not the token. -/
  tag : ∀ tag rest, form = .call "throw" (tag :: rest) →
    tag ≠ .quote token ∧ Catalogue.registry.invocation? tag = none

/-- Nothing in the form leads to an exit to the token. -/
def Quiet (token form : Form) : Prop := Throughout (Restrained token) form

theorem restrained_of_ne_list (h : ∀ items, form ≠ .list items) : Restrained token form where
  head _ _ heq := absurd heq (h _)
  stays _ _ heq := absurd heq (h _)
  tag _ _ heq := absurd heq (h _)

theorem restrained_call {head : String} {args : List Form} (hhead : head ∉ Catalogue.leavingRules)
    (hthrow : head ≠ "throw") : Restrained token (.call head args) where
  head _ _ heq := nomatch heq
  stays name _ heq := by
    cases heq
    exact hhead
  tag _ _ heq := by
    cases heq
    exact absurd rfl hthrow

theorem quiet_symbol (name : String) : Quiet token (.symbol name) :=
  throughout_of_inside (restrained_of_ne_list fun _ heq => nomatch heq) rfl

theorem quiet_call {head : String} {args : List Form} (hhead : head ∉ Catalogue.leavingRules)
    (hthrow : head ≠ "throw") (hargs : ∀ arg ∈ args, Quiet token arg) :
    Quiet token (.call head args) :=
  throughout_list.mpr ⟨restrained_call hhead hthrow,
    List.forall_mem_cons.mpr ⟨quiet_symbol head, hargs⟩⟩

theorem Quiet.plain (h : Quiet token form) : Catalogue.registry.Plain form :=
  fun call rest hexposed => (h _ hexposed).head call rest rfl

theorem composing_quiet (token : Form) : Composing (Quiet token) := by
  have hheads : ∀ head ∈ HostCode.heads, head ∉ Catalogue.leavingRules ∧ head ≠ "throw" := by
    decide
  refine composing_throughout ?_ ?_ ?_ ?_ ?_
  · exact fun name => restrained_of_ne_list fun _ heq => nomatch heq
  · exact fun inner => restrained_of_ne_list fun _ heq => nomatch heq
  · exact fun inner => restrained_of_ne_list fun _ heq => nomatch heq
  · exact fun hhead => restrained_call (hheads _ hhead).1 (hheads _ hhead).2
  · intro items hitems
    refine ⟨fun call rest heq => ?_, fun name args heq => ?_, fun tag rest heq => ?_⟩
    · cases heq
      obtain ⟨head, hhead, args, hcall⟩ := hitems (.list call) (by simp)
      rw [hcall]
      refine Registry.invocation?_call ?_ args
      exact Catalogue.not_contains_names head (List.mem_of_mem_filter hhead)
    · cases heq
      obtain ⟨_, _, _, hcall⟩ := hitems (.symbol name) (by simp)
      cases hcall
    · cases heq
      obtain ⟨_, _, _, hcall⟩ := hitems (.symbol "throw") (by simp)
      cases hcall

theorem postponing_quiet (token : Form) : Postponing (Quiet token) := by
  intro head args hhead hargs
  have hheads : ∀ head ∈ HostCode.postponing, head ∉ Catalogue.leavingRules ∧ head ≠ "throw" := by
    decide
  exact quiet_call (hheads head hhead).1 (hheads head hhead).2 hargs

end Form

namespace Settings

variable {settings : Settings} {token : Form}

/-- What a rule that asks for no exit makes of quiet forms is quiet. -/
theorem quiet_of_apply {room : Nat} (h : settings.Keeps (Form.Quiet token) (Form.Quiet token) room)
    {frame : Frame} (hframe : frame.Keeps (Form.Quiet token)) {head : String} {entry : Entry}
    {args : List Form} (hfind : Catalogue.registry.find? head = some entry)
    (hhead : head ∉ Catalogue.leavingRules) (hargs : ∀ arg ∈ args, Form.Quiet token arg) :
    (entry.apply (settings.inside room 0 frame).means args).Returns (Form.Quiet token) := by
  have hleaves := Catalogue.leaves_eq_false hfind hhead
  refine h.apply (Form.composing_quiet token) id id hframe
    (Catalogue.native_registry head entry hfind).2.2 (fun _ => Form.postponing_quiet token)
    (fun hexit => ?_) hargs
  rw [hleaves] at hexit
  cases hexit

variable (hbuiltin : settings.registry = Catalogue.registry)

include hbuiltin

/-- A list of quiet forms is as restrained after its items were expanded: its head
is no invocation, so it stays a list or the symbol that it was. -/
theorem restrained_of_outcomes {room : Nat} {frame : Frame} {items results : List Form}
    (h : List.Forall₂ (fun item result => settings.outcome room frame item = .ok result) items
      results) (hquiet : Form.Quiet token (.list items)) :
    Form.Restrained token (.list results) := by
  obtain ⟨hrestrained, hitems⟩ := Form.throughout_list.mp hquiet
  have hhead : ∀ {first : Form} {rest : List Form}, items = first :: rest →
      settings.registry.invocation? first = none := by
    rintro first rest rfl
    rw [hbuiltin]
    cases first with
    | list call => exact hrestrained.head call rest rfl
    | _ => rfl
  have hplain : ∀ item ∈ items, settings.registry.Plain item := by
    intro item hitem
    rw [hbuiltin]
    exact Form.Quiet.plain (hitems item hitem)
  refine ⟨fun call rest heq => ?_, fun name args heq => ?_, fun tag rest heq => ?_⟩
  · cases heq
    cases h with
    | cons hfirst _ =>
        rw [← hbuiltin]
        exact invocation?_of_outcome (hplain _ (by simp)) (hhead rfl) hfirst
  · cases heq
    cases h with
    | cons hfirst _ =>
        rw [eq_symbol_of_idle (hhead rfl) hfirst] at hrestrained
        exact hrestrained.stays name _ rfl
  · cases heq
    cases h with
    | cons hfirst hothers =>
        rw [eq_symbol_of_idle (hhead rfl) hfirst] at hrestrained
        cases hothers with
        | @cons given _ _ _ hsecond _ =>
            obtain ⟨htoken, hgiven⟩ := hrestrained.tag given _ rfl
            rw [← hbuiltin] at hgiven ⊢
            have hresult := invocation?_of_outcome (hplain given (by simp)) hgiven hsecond
            refine ⟨fun hquote => ?_, hresult⟩
            subst hquote
            exact htoken (eq_quote_of_idle hgiven hsecond)

/-- Expansion keeps forms quiet. -/
theorem quiet_outcome (room : Nat) :
    settings.Keeps (Form.Quiet token) (Form.Quiet token) room := by
  refine @keeps_outcome (Form.Quiet token) (Form.Quiet token) settings ?_ ?_ room
  · intro room ih frame form entry args hframe hform hcall
    rw [hbuiltin] at hcall
    obtain ⟨head, rfl, hfind⟩ := Registry.of_invocation? hcall
    obtain ⟨hrestrained, hitems⟩ := Form.throughout_list.mp hform
    exact quiet_of_apply ih hframe hfind (hrestrained.stays head args rfl)
      (List.forall_mem_cons.mp hitems).2
  · intro room frame rested out ih hframe hrested hidle hdescends
    refine throughout_of_descends ih hframe
      (fun inner => Form.restrained_of_ne_list fun _ heq => nomatch heq) ?_ hrested hdescends
    rintro items results rfl heach
    exact restrained_of_outcomes hbuiltin heach hrested

end Settings

/-! ## Prompt forms -/

namespace Form

variable {token form : Form}

/-- A list that may make code for later of what it holds. A list whose head may
still become any name is one of them. -/
inductive Late : Form → Prop
  | named {head : String} {args : List Form} (postpones : head ∈ Catalogue.postponingHeads) :
      Late (.call head args)
  | loose {call rest : List Form} (unsettled : ¬ Catalogue.registry.Firm (.list call)) :
      Late (.list (.list call :: rest))

/-- Nothing that the form holds for later leads to an exit to the token. -/
def Prompt (token form : Form) : Prop :=
  Throughout (fun part => Late part → ∀ item ∈ part.inside, Quiet token item) form

theorem late_call {head : String} {args : List Form} :
    Late (.call head args) ↔ head ∈ Catalogue.postponingHeads :=
  ⟨fun h => by cases h; assumption, .named⟩

theorem not_late_of_ne_list (h : ∀ items, form ≠ .list items) : ¬ Late form := by
  rintro (_ | _) <;> exact h _ rfl

theorem prompt_of_inside (hlist : ∀ items, form ≠ .list items) (hinside : form.inside = []) :
    Prompt token form :=
  throughout_of_inside (fun hlate => absurd hlate (not_late_of_ne_list hlist)) hinside

theorem prompt_call {head : String} {args : List Form} (hhead : head ∉ Catalogue.postponingHeads)
    (hargs : ∀ arg ∈ args, Prompt token arg) : Prompt token (.call head args) := by
  refine throughout_list.mpr ⟨fun hlate => absurd (late_call.mp hlate) hhead, ?_⟩
  exact List.forall_mem_cons.mpr ⟨prompt_of_inside (fun _ heq => nomatch heq) rfl, hargs⟩

/-- A quiet form is prompt, for all that it holds is quiet. -/
theorem Quiet.prompt (h : Quiet token form) : Prompt token form :=
  fun _ hexposed _ _ hitem part hpart => h part (hpart.trans (.trans (.inner hitem) hexposed))

theorem composing_prompt (token : Form) : Composing (Prompt token) := by
  have hheads : ∀ head ∈ HostCode.heads, head ∉ Catalogue.postponingHeads := by decide
  refine composing_throughout ?_ ?_ ?_ ?_ ?_
  · exact fun name hlate => absurd hlate (not_late_of_ne_list fun _ heq => nomatch heq)
  · exact fun inner hlate => absurd hlate (not_late_of_ne_list fun _ heq => nomatch heq)
  · exact fun inner hlate => absurd hlate (not_late_of_ne_list fun _ heq => nomatch heq)
  · exact fun hhead hlate => absurd (late_call.mp hlate) (hheads _ hhead)
  · intro items hitems hlate
    cases hlate with
    | @named head args _ =>
        obtain ⟨_, _, _, hcall⟩ := hitems (.symbol head) (by simp)
        cases hcall
    | @loose call rest hloose =>
        obtain ⟨head, hhead, args, hcall⟩ := hitems (.list call) (by simp)
        rw [hcall] at hloose
        refine absurd (.named ?_) hloose
        exact Catalogue.not_contains_names head (List.mem_of_mem_filter hhead)

theorem leaving_prompt (token : Form) : Leaving (Prompt token) := by
  intro tag value _ hvalue
  have htag : Prompt token (.quote tag) := prompt_of_inside (fun _ heq => nomatch heq) rfl
  exact prompt_call (by decide)
    (List.forall_mem_cons.mpr ⟨htag, List.forall_mem_singleton.mpr hvalue⟩)

end Form

namespace Settings

variable {settings : Settings} (hbuiltin : settings.registry = Catalogue.registry) {token : Form}

include hbuiltin

/-- A list that may postpone after its items were expanded was one before. -/
theorem late_of_outcomes {room : Nat} {frame : Frame} {items results : List Form}
    (h : List.Forall₂ (fun item result => settings.outcome room frame item = .ok result) items
      results) (hlate : Form.Late (.list results)) : Form.Late (.list items) := by
  have hloose : ∀ {call : List Form} {out : Form},
      settings.outcome room frame (.list call) = .ok out → ¬ Catalogue.registry.Firm out →
        ¬ Catalogue.registry.Firm (.list call) := by
    rw [← hbuiltin]
    exact fun hout hnot hfirm => hnot (firm_of_outcome hfirm hout)
  cases hlate with
  | @named head args hpostpones =>
      cases h with
      | @cons first _ _ _ hfirst _ =>
          by_cases hlist : ∃ call, first = .list call
          · obtain ⟨call, rfl⟩ := hlist
            exact .loose (hloose hfirst fun hfirm => nomatch hfirm)
          · rw [eq_symbol_of_outcome (fun call hcall => hlist ⟨call, hcall⟩) hfirst]
            exact .named hpostpones
  | @loose call rest hnot =>
      cases h with
      | cons hfirst _ =>
          obtain ⟨inner, rfl⟩ := eq_list_of_outcome hfirst
          exact .loose (hloose hfirst hnot)

/-- Expansion keeps forms prompt. What a rule that makes code for later is given
is all quiet, and so is what it makes; any other rule is given prompt forms. -/
theorem prompt_outcome (room : Nat) :
    settings.Keeps (Form.Quiet token) (Form.Prompt token) room := by
  have hquiet : ∀ room, settings.Keeps (Form.Quiet token) (Form.Quiet token) room :=
    quiet_outcome hbuiltin
  refine @keeps_outcome (Form.Quiet token) (Form.Prompt token) settings ?_ ?_ room
  · intro room ih frame form entry args hframe hform hcall
    rw [hbuiltin] at hcall
    obtain ⟨head, rfl, hfind⟩ := Registry.of_invocation? hcall
    obtain ⟨hlate, hitems⟩ := Form.throughout_list.mp hform
    by_cases hhead : head ∈ Catalogue.postponingHeads
    · have hstays : ∀ name ∈ Catalogue.postponingHeads, name ∉ Catalogue.leavingRules := by decide
      have hargs := (List.forall_mem_cons.mp (hlate (.named hhead))).2
      have hmade := quiet_of_apply (hquiet room) hframe hfind (hstays head hhead) hargs
      exact fun before after made hrun => (hmade before after made hrun).prompt
    · have hpostpones := Catalogue.postpones_eq_false hfind hhead
      refine ih.apply (Form.composing_prompt token) Form.Quiet.prompt
        (fun _ => Form.quiet_symbol _) hframe
        (Catalogue.native_registry head entry hfind).2.2 (fun hlater => ?_)
        (fun _ => Form.leaving_prompt token) (List.forall_mem_cons.mp hitems).2
      rw [hpostpones] at hlater
      cases hlater
  · intro room frame rested out ih hframe hrested hidle hdescends
    refine throughout_of_descends ih hframe
      (fun inner hlate => absurd hlate (Form.not_late_of_ne_list fun _ heq => nomatch heq)) ?_
      hrested hdescends
    rintro items results rfl heach hlate result hresult
    obtain ⟨item, hitem, hended⟩ := exists_mem_of_forall₂ heach.flip hresult
    have hbefore := late_of_outcomes hbuiltin heach hlate
    exact hquiet room hframe ((Form.throughout_list.mp hrested).1 hbefore item hitem) hended

end Settings

/-! ## Vectors

Expansion passes vectors over, so a name that is in none of them to begin with
gets into none. -/

namespace Form

variable {name : String} {form : Form}

/-- No vector in the form holds a symbol of this name. -/
def VectorsLack (name : String) (form : Form) : Prop :=
  Throughout (fun part => ∀ items, part = .vector items → name ∉ part.symbols) form

theorem vectorsLack_of_not_mem (h : name ∉ form.symbols) : VectorsLack name form := by
  intro part hexposed _ _ hmem
  exact h (hexposed.unquoted.symbols_subset hmem)

theorem vectorsLack_symbol (name symbol : String) : VectorsLack name (.symbol symbol) :=
  throughout_of_inside (fun _ heq => nomatch heq) rfl

theorem vectorsLack_call {head : String} {args : List Form}
    (hargs : ∀ arg ∈ args, VectorsLack name arg) : VectorsLack name (.call head args) := by
  refine throughout_list.mpr ⟨fun _ heq => (nomatch heq), ?_⟩
  exact List.forall_mem_cons.mpr ⟨vectorsLack_symbol name head, hargs⟩

theorem upkeep_vectorsLack (name : String) : Upkeep (VectorsLack name) where
  toComposing := composing_throughout (fun _ _ heq => nomatch heq) (fun _ _ heq => nomatch heq)
    (fun _ _ heq => nomatch heq) (fun _ _ heq => nomatch heq) (fun _ _ heq => nomatch heq)
  postponed _ hargs := vectorsLack_call hargs
  leaving := by
    intro token value _ hvalue
    have htag : VectorsLack name (.quote token) :=
      throughout_of_inside (fun _ heq => nomatch heq) rfl
    exact vectorsLack_call (List.forall_mem_cons.mpr ⟨htag, List.forall_mem_singleton.mpr hvalue⟩)

end Form

theorem Settings.vectorsLack_outcome {settings : Settings} (hnative : settings.registry.Native)
    (name : String) (room : Nat) :
    settings.Keeps (Form.VectorsLack name) (Form.VectorsLack name) room := by
  refine keeps_outcome ((Form.upkeep_vectorsLack name).replaces hnative) ?_ room
  intro room frame rested out ih hframe hrested _ hdescends
  exact throughout_of_descends ih hframe (fun _ _ heq => nomatch heq)
    (fun _ _ _ heq => nomatch heq) hrested hdescends

/-! ## Setups -/

/-- In a prompt form whose vectors do not hold the token, nothing for later holds
an exit. -/
theorem Form.Prompt.not_throwsTo {number : UInt64} {form late exit : Form}
    (hprompt : Prompt (Setup.token number) form)
    (hvectors : VectorsLack (Setup.tokenName number) form) (hlate : Unquoted late form)
    (hpostpones : late.Postpones) (hexit : Unquoted exit late) :
    ¬ ThrowsTo (Setup.token number) exit := by
  rintro ⟨rest, rfl⟩
  have htoken : Setup.tokenName number ∈
      (Form.call "throw" (.quote (Setup.token number) :: rest)).symbols := by
    simp [call, symbols, symbolsOf, Setup.token, Setup.tokenName]
  have hin := hexit.symbols_subset htoken
  rcases hlate.exposed_or_vector with hexposed | ⟨items, hvector, hinner⟩
  · obtain ⟨head, hhead, args, rfl⟩ := hpostpones
    have hquiet := hprompt _ hexposed (.named (List.mem_append_left _ hhead))
    rcases hexit.exposed_or_vector with hthrow | ⟨items, hvector, hinner⟩
    · rcases exposed_iff.mp hthrow with heq | ⟨item, hitem, hthrow⟩
      · cases heq
        exact absurd hhead (by decide)
      · exact ((hquiet item hitem _ hthrow).tag _ _ rfl).1 rfl
    · exact hvectors _ (hvector.trans hexposed) items rfl (hinner.symbols_subset htoken)
  · exact hvectors _ hvector items rfl (hinner.symbols_subset hin)

namespace Setup

/-- A setup with the built-in rules, whose token is new to it. If nothing that
its forms hold for later leads to an early exit, and nothing that the context
binds does, then in its code no throw to the token stands in a list that the
host evaluates later. So every exit is evaluated inside the catch. -/
theorem run_throws_in_time (host : Host) (options : SetupOptions) (name : Form)
    (body : List Form) (number : UInt64) (hname : tokenName number ∉ name.symbols)
    (hbody : ∀ form ∈ body, tokenName number ∉ form.symbols)
    (hframe : ∀ binding ∈ host.frame.bindings, tokenName number ∉ binding.2.symbols)
    (hcontext : ∀ key value, key ≠ .quit → host.frame.find? key = some value →
      Form.Quiet (token number) value)
    (hprompt : ∀ form ∈ rooted Catalogue.registry options.rootRule name body,
      Form.Prompt (token number) form) {outcome : Outcome} {next : UInt64}
    (hrun : (run Catalogue.registry host options name body).perform number = (.ok outcome, next)) :
    ∀ late exit, Form.Unquoted late outcome.form → late.Postpones → Form.Unquoted exit late →
      ¬ Form.ThrowsTo (token number) exit := by
  have hquiet : (host.frame.bind .quit (token number)).Keeps (Form.Quiet (token number)) := by
    intro key value hfind
    rw [Frame.find?_bind] at hfind
    split at hfind
    · cases hfind
      exact Form.quiet_symbol _
    · next hkey => exact hcontext key value hkey hfind
  have hclear : (host.frame.bind .quit (token number)).Keeps
      (Form.VectorsLack (tokenName number)) := by
    have hconfines := confines_bind_token hframe
    intro key value hfind
    by_cases hkey : key = .quit
    · subst hkey
      rw [hconfines.quit] at hfind
      cases hfind
      exact Form.vectorsLack_symbol _ _
    · exact Form.vectorsLack_of_not_mem (hconfines.others hkey hfind)
  let settings : Settings := ⟨Catalogue.registry, options.limits, options.tracing⟩
  have hbuiltin : settings.registry = Catalogue.registry := by dsimp only [settings]
  have hcode : Form.Prompt (token number) outcome.form :=
    keeps_run (Form.composing_prompt _) (Settings.prompt_outcome hbuiltin _) hquiet
      (Form.quiet_symbol _).prompt hprompt hrun
  have hvectors : Form.VectorsLack (tokenName number) outcome.form := by
    have hnative : settings.registry.Native := hbuiltin ▸ Catalogue.native_registry
    have habsent := not_mem_rooted Catalogue.native_registry hname hbody options.rootRule
    exact keeps_run (Form.upkeep_vectorsLack _).toComposing
      (Settings.vectorsLack_outcome hnative _ _) hclear (Form.vectorsLack_symbol _ _)
      (fun form hform => Form.vectorsLack_of_not_mem (habsent form hform)) hrun
  exact fun late exit hlate hpostpones hexit =>
    hcode.not_throwsTo hvectors hlate hpostpones hexit

/-- The body of a setup that may leave and that also waits. -/
def waiting : List Form := [.call ":needs" [.text "git"], .call ":when-loaded" [.call "f" []]]

/-- What becomes of a setup of `magit` with that body and the first token. -/
def waitingOutcome : Outcome where
  form := HostCode.catchFor (token 0)
    [.call "unless" [.call "executable-find" [.text "git"], HostCode.throwTo (token 0) Form.nil],
     HostCode.afterLoad (.quote (.symbol "magit")) [.call "f" []]]
  target := some (.symbol "magit")
  token := token 0
  progress := {
    guarded := true
    replacements := 3
    deepest := 4
    tally := [(":needs", 1), (":when-loaded", 1), (":with-feature", 1)] }

theorem run_throws_in_time_of_waiting :
    (run Catalogue.registry {} {} (.symbol "magit") waiting).perform 0 = (.ok waitingOutcome, 1) ∧
    (∀ form ∈ rooted Catalogue.registry (some ":with-feature") (.symbol "magit") waiting,
      Form.Prompt (token 0) form) ∧
    ∀ late exit, Form.Unquoted late waitingOutcome.form → late.Postpones →
      Form.Unquoted exit late → ¬ Form.ThrowsTo (token 0) exit := by
  have hrun : (run Catalogue.registry {} {} (.symbol "magit") waiting).perform 0 =
      (.ok waitingOutcome, 1) := by
    rfl
  have hneeds : Form.Prompt (token 0) (.call ":needs" [.text "git"]) :=
    Form.prompt_call (by decide) (List.forall_mem_singleton.mpr
      (Form.prompt_of_inside (fun _ heq => nomatch heq) rfl))
  have hwaits : Form.Quiet (token 0) (.call ":when-loaded" [.call "f" []]) :=
    Form.quiet_call (by decide) (by decide) (List.forall_mem_singleton.mpr
      (Form.quiet_call (by decide) (by decide) fun _ hnone => absurd hnone List.not_mem_nil))
  have hprompt : ∀ form ∈ rooted Catalogue.registry (some ":with-feature") (.symbol "magit")
      waiting, Form.Prompt (token 0) form := by
    have hroot : Catalogue.registry.contains ":with-feature" = true := by decide +kernel
    have hrooted : rooted Catalogue.registry (some ":with-feature") (.symbol "magit") waiting =
        [.call ":with-feature" (.symbol "magit" :: waiting)] := by
      simp only [rooted, target?, wholeBody, hroot, if_true]
    rw [hrooted]
    refine List.forall_mem_singleton.mpr (Form.prompt_call (by decide) ?_)
    exact List.forall_mem_cons.mpr ⟨(Form.quiet_symbol "magit").prompt,
      List.forall_mem_cons.mpr ⟨hneeds, List.forall_mem_singleton.mpr hwaits.prompt⟩⟩
  refine ⟨hrun, hprompt, ?_⟩
  refine run_throws_in_time {} {} (.symbol "magit") waiting 0 (by decide) (by decide) (by decide)
    ?_ hprompt hrun
  intro key value _ hfind
  cases hfind

/-- An exit that is asked for behind the loading of a feature is thrown there. -/
theorem run_throws_late_of_when_loaded :
    ∃ outcome, (run Catalogue.registry {} {} (.symbol "foo")
        [.call ":when-loaded" [.call ":quit" []]]).perform 0 = (.ok outcome, 1) ∧
      tokenName 0 ∉ (Form.symbol "foo").symbols ∧
      tokenName 0 ∉ (Form.call ":when-loaded" [.call ":quit" []]).symbols ∧
      ∃ late exit, Form.Unquoted late outcome.form ∧ late.Postpones ∧ Form.Unquoted exit late ∧
        Form.ThrowsTo (token 0) exit := by
  let exit := HostCode.throwTo (token 0) Form.nil
  let late := HostCode.afterLoad (.quote (.symbol "foo")) [exit]
  have hlate : Form.Unquoted late (HostCode.catchFor (token 0) [late]) :=
    .item (by simp) (.root _)
  have hexit : Form.Unquoted exit late := .item (by simp) (.root _)
  exact ⟨_, rfl, by decide, by decide, late, exit, hlate, ⟨_, by decide, _, rfl⟩, hexit, _, rfl⟩

end Setup

end Rulebook
