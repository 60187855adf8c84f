import Rulebook.Proofs.Outcome
import Rulebook.Proofs.Setups

/-!
# What the built-in rules keep up

The built-in rules put code together from the forms they are given, the names
that the context holds and a few names of their own. So whatever is true of all
of these, and is not lost when a call is put around them, is true of the code.
`Upkeep` lists what a property has to satisfy for that. Then a form that has the
property, beside itself, is related to itself, and what is said of rules and
related forms is said of the property.

Some rules do more than put calls around forms. A few postpone them, into a
`lambda` or behind the loading of a feature, and a few add an early exit. What
a property has to satisfy for these is kept apart, and a property that does not
satisfy it is still kept up by the other rules.

What a rule makes is then replaced further and gone down into. The first is
again a matter of the rules, but the second depends on the property: the results
of the items of a list stand side by side in a list that no rule has made. That
part is left open here.
-/

namespace Rulebook

/-- Every result of the run is right. -/
def Run.Returns {α : Type} (run : Run α) (right : α → Prop) : Prop :=
  ∀ (before after : Progress) (value : α), run.perform before = (.ok value, after) → right value

namespace Run.Returns

variable {α β : Type} {right : β → Prop}

theorem pure {value : β} (h : right value) : (Pure.pure value : Run β).Returns right := by
  intro before after result hrun
  cases hrun
  exact h

theorem throw (fault : Fault) : (MonadExcept.throw fault : Run β).Returns right := by
  intro before after result hrun
  cases hrun

theorem bind {run : Run α} {next : α → Run β} {between : α → Prop} (h : run.Returns between)
    (hnext : ∀ value, between value → (next value).Returns right) :
    (run >>= next).Returns right := by
  intro before after result hrun
  obtain ⟨value, middle, hfirst, hrest⟩ := perform_bind_ok hrun
  exact hnext value (h _ _ _ hfirst) _ _ _ hrest

end Run.Returns

/-- Results have a property if each is related to itself by it. -/
theorem Run.returns_iff {α : Type} {P : α → Prop} {run other : Run α} :
    (Relating.alone fun _ => True).holds (Sharing P) run other ↔ run.Returns P := by
  constructor
  · intro h before after value hrun
    obtain ⟨_, -, hvalue⟩ := (h before).1 value (congrArg Prod.fst hrun)
    exact hvalue
  · refine fun h progress => ⟨fun value hvalue => ⟨value, rfl, ?_⟩, fun _ _ => trivial⟩
    exact h progress _ value (Prod.ext hvalue rfl)

/-- A property that passes from forms to the code that is made from them, as far
as the code neither waits nor leaves. -/
structure Composing (P : Form → Prop) : Prop where
  name : ∀ {name : String}, name ∈ HostCode.names → P (.symbol name)
  /-- Modes, maps and hooks are named after other things. -/
  ended : ∀ {name ending : String}, P (.symbol name) → ending ∈ ["-mode", "-map", "-hook"] →
    P (.symbol (name ++ ending))
  quote : ∀ {form : Form}, P form → P (.quote form)
  unquote : ∀ {name : String}, P (.quote (.symbol name)) → P (.symbol name)
  function : ∀ {name : String}, P (.symbol name) → P (.function (.symbol name))
  call : ∀ {head : String} {args : List Form}, head ∈ HostCode.heads → (∀ arg ∈ args, P arg) →
    P (.call head args)
  /-- The bindings of a `let` are a list of lists. -/
  calls : ∀ {items : List Form},
    (∀ item ∈ items, P item ∧ ∃ head ∈ HostCode.heads, ∃ args, item = .call head args) →
      P (.list items)
  items : ∀ {items : List Form}, P (.list items) → ∀ item ∈ items, P item

/-- What has the property may be postponed. -/
def Postponing (P : Form → Prop) : Prop :=
  ∀ {head : String} {args : List Form}, head ∈ HostCode.postponing → (∀ arg ∈ args, P arg) →
    P (.call head args)

/-- An early exit has the property. -/
def Leaving (P : Form → Prop) : Prop :=
  ∀ {token value : Form}, P token → P value → P (HostCode.throwTo token value)

/-- A property that passes from forms to all code that the rules make from
them. -/
structure Upkeep (P : Form → Prop) : Prop extends Composing P where
  postponed : Postponing P
  leaving : Leaving P

namespace Composing

variable {P : Form → Prop} (h : Composing P)

include h

/-- What is said of related forms is said of forms with the property. -/
theorem transfers : Transfers (Sharing P) (Sharing P) where
  name hname := ⟨rfl, h.name hname⟩
  ended hname hending := ⟨rfl, h.ended hname.2 hending⟩
  quote hform := ⟨congrArg Form.quote hform.1, h.quote hform.2⟩
  function hname := ⟨rfl, h.function hname.2⟩
  remark := by
    rintro one two ⟨heq, hquote⟩
    cases heq
    exact ⟨rfl, h.function (h.unquote hquote)⟩
  call hhead hargs := by
    obtain ⟨rfl, heach⟩ := forall₂_sharing.mp hargs
    exact ⟨rfl, h.call hhead heach⟩
  calls {items copies} hitems := by
    have hboth : List.Forall₂ (Sharing fun item =>
        P item ∧ ∃ head ∈ HostCode.heads, ∃ args, item = .call head args) items copies := by
      refine hitems.imp ?_
      rintro item copy ⟨⟨rfl, hitem⟩, head, hhead, args, -, hcall, -⟩
      exact ⟨rfl, hitem, head, hhead, args, hcall⟩
    obtain ⟨rfl, heach⟩ := forall₂_sharing.mp hboth
    exact ⟨rfl, h.calls heach⟩
  alike := by
    rintro form _ ⟨rfl, hform⟩
    refine .refl fun items heq item hitem => ?_
    subst heq
    exact ⟨rfl, h.items hform item hitem⟩
  block := by
    rintro forms twins ⟨heq, hblock⟩
    cases heq
    exact forall₂_sharing.mpr ⟨rfl, fun form hform => h.items hblock form (by simp [hform])⟩
  among := id
  apart := .inl

theorem transfersLater (hlate : Postponing P) : TransfersLater (Sharing P) (Sharing P) where
  postponed hhead hargs := by
    obtain ⟨rfl, heach⟩ := forall₂_sharing.mp hargs
    exact ⟨rfl, hlate hhead heach⟩
  awaited := by
    rintro feature _ body copies ⟨rfl, hfeature⟩ hbody
    obtain ⟨rfl, heach⟩ := forall₂_sharing.mp hbody
    have hquoted := (h.transfers.quoted ⟨rfl, hfeature⟩).2
    exact ⟨rfl, hlate (by decide) (List.forall_mem_cons.mpr ⟨hquoted, heach⟩)⟩

theorem sequence {forms : List Form} (hforms : ∀ form ∈ forms, P form) :
    P (Form.sequence forms) :=
  (h.transfers.sequence (forall₂_sharing.mpr ⟨rfl, hforms⟩)).2

theorem statements {form : Form} (hform : P form) : ∀ statement ∈ form.statements, P statement :=
  (forall₂_sharing.mp (h.transfers.statements ⟨rfl, hform⟩)).2

end Composing

/-! ## Contexts -/

/-- Everything that the context binds has the property. -/
def Frame.Keeps (frame : Frame) (P : Form → Prop) : Prop :=
  ∀ (key : Key) (value : Form), frame.find? key = some value → P value

theorem Frame.Keeps.empty (P : Form → Prop) : Frame.empty.Keeps P := by
  intro key value hfind
  cases hfind

theorem Frame.Keeps.bind {P : Form → Prop} {frame : Frame} (h : frame.Keeps P) (key : Key)
    {value : Form} (hvalue : P value) : (frame.bind key value).Keeps P := by
  intro sought found hfind
  rw [find?_bind] at hfind
  split at hfind
  · cases hfind
    exact hvalue
  · exact h sought found hfind

theorem Frame.Keeps.of_deduce {P : Form → Prop} {frame : Frame} (h : frame.Keeps P) {key : Key}
    {value : Form} (hvalue : frame.deduce key = .ok value) : P value := by
  unfold Frame.deduce at hvalue
  split at hvalue
  · next hfind =>
      cases hvalue
      exact h key _ hfind
  · cases hvalue

variable {R P : Form → Prop}

/-- Contexts that bind forms with the property `R` only, to be used for forms with the
property `P`. The two may be the same. In any case what has the first has the second,
and for symbols there is no difference. -/
theorem Composing.contexts (h : Composing P) (hvalue : ∀ {form : Form}, R form → P form)
    (hsymbol : ∀ {name : String}, P (.symbol name) → R (.symbol name)) :
    (Relating.alone fun _ => True).Contexts (Sharing P) (Sharing P)
      (Sharing fun frame => frame.Keeps R) where
  transfers := h.transfers
  deduce := by
    rintro frame _ key ⟨rfl, hframe⟩ -
    cases hdeduce : frame.deduce key with
    | ok value => exact .ok ⟨rfl, hvalue (hframe.of_deduce hdeduce)⟩
    | error fault => exact .error trivial
  bind := by
    rintro frame _ key name ⟨rfl, hframe⟩ - hname
    exact ⟨rfl, hframe.bind key (hsymbol hname.2)⟩
  unknownTarget _ := trivial
  expectedSymbol _ _ _ _ := trivial
  fault _ _ := trivial
  note _ := Relating.alone_note _ _

theorem Leaving.exits (h : Leaving P) (hvalue : ∀ {form : Form}, R form → P form) {scene : Scene}
    (hframe : scene.frame.Keeps R) :
    (Relating.alone fun _ => True).Exits (Sharing P) scene.means scene.means := by
  rintro value _ ⟨rfl, hresult⟩
  have htoken : (scene.deduce .quit).Returns P := by
    intro before after token hrun
    rw [Scene.deduce, Run.perform_settled] at hrun
    exact hvalue (hframe.of_deduce (congrArg Prod.fst hrun))
  refine Run.returns_iff.mpr (htoken.bind fun token htoken before after out hrun => ?_)
  cases hrun
  exact h htoken hresult

/-! ## Expansion -/

namespace Settings

variable {R P : Form → Prop} {settings : Settings} {room : Nat}

/-- What replacing an invocation keeps, replacing until a form rests keeps. -/
theorem settle_returns {scene : Scene}
    (h : ∀ {form : Form} {entry : Entry} {args : List Form},
      settings.registry.invocation? form = some (entry, args) → P form →
        (entry.apply scene.means args).Returns P)
    (depth left : Nat) {form : Form} (hform : P form) :
    (settings.settle scene depth left form).Returns P := by
  induction left generalizing form with
  | zero =>
      unfold settle
      split
      · exact .pure hform
      · exact .throw _
  | succ left ih =>
      unfold settle
      split
      · exact .pure hform
      · next entry args hcall =>
          have hnoted : (Run.note (·.record settings.tracing entry.id depth)).Returns
              fun _ => True := fun _ _ _ _ => trivial
          refine (h hcall hform).bind fun made hmade => ?_
          exact hnoted.bind fun _ _ => ih hmade

/-- The property `P` is kept by expansion with `room` levels to go down, in every
context that binds forms with the property `R`. -/
def Keeps (settings : Settings) (R P : Form → Prop) (room : Nat) : Prop :=
  ∀ {frame : Frame} {form out : Form}, frame.Keeps R → P form →
    settings.outcome room frame form = .ok out → P out

/-- The property is kept when an invocation is replaced. -/
def Replaces (settings : Settings) (R P : Form → Prop) (room : Nat) : Prop :=
  ∀ {frame : Frame} {form : Form} {entry : Entry} {args : List Form}, frame.Keeps R → P form →
    settings.registry.invocation? form = some (entry, args) →
      (entry.apply (settings.inside room 0 frame).means args).Returns P

theorem Keeps.scenes (h : settings.Keeps R P room) {frame : Frame} (hframe : frame.Keeps R) :
    (Relating.alone fun _ => True).Scenes (Sharing P) (Sharing fun frame => frame.Keeps R)
      (settings.inside room 0 frame) (settings.inside room 0 frame) := by
  refine ⟨⟨rfl, hframe⟩, ?_⟩
  rintro inner _ part _ ⟨rfl, hinner⟩ ⟨rfl, hpart⟩
  refine Run.returns_iff.mpr fun before after out hrun => h hinner hpart ?_
  rw [← settings.expand_yields room 0 inner part before]
  exact congrArg Prod.fst hrun

/-- A rule keeps the property if that passes to the kind of code that it makes. -/
theorem Keeps.apply (h : settings.Keeps R P room) (hkeep : Composing P)
    (hvalue : ∀ {form : Form}, R form → P form)
    (hsymbol : ∀ {name : String}, P (.symbol name) → R (.symbol name)) {frame : Frame}
    (hframe : frame.Keeps R) {entry : Entry} (hentry : entry.action.isNative = true)
    (hlate : entry.postpones = true → Postponing P)
    (hexit : entry.action.leaves = true → Leaving P) {args : List Form}
    (hargs : ∀ arg ∈ args, P arg) :
    (entry.apply (settings.inside room 0 frame).means args).Returns P := by
  have hserves := (h.scenes hframe).serves (hkeep.contexts hvalue hsymbol)
  exact Run.returns_iff.mp (hserves.apply hentry
    (fun hlater => hkeep.transfersLater (hlate hlater))
    (fun hleaves => Leaving.exits (hexit hleaves) hvalue hframe)
    (forall₂_sharing.mpr ⟨rfl, hargs⟩) fun _ _ _ _ _ => trivial)

theorem keeps_rest (h : settings.Replaces R P room) {frame : Frame} {form rested : Form}
    (hframe : frame.Keeps R) (hform : P form)
    (hrest : settings.rest room frame form = .ok rested) : P rested :=
  settle_returns (fun hcall hform => h hframe hform hcall) 0 _ hform _ _ _ (Prod.ext hrest rfl)

/-- Expansion keeps the property if replacing an invocation does, and going down
into a form that invokes no rule. -/
theorem keeps_outcome
    (hreplaces : ∀ {room : Nat}, settings.Keeps R P room → settings.Replaces R P room)
    (hdescends : ∀ {room : Nat} {frame : Frame} {rested out : Form}, settings.Keeps R P room →
      frame.Keeps R → P rested → settings.registry.invocation? rested = none →
        settings.Descends room frame rested out → P out) (room : Nat) :
    settings.Keeps R P room := by
  induction room with
  | zero =>
      intro frame form out _ _ hout
      cases hout
  | succ room ih =>
      intro frame form out hframe hform hout
      obtain ⟨rested, hrest, hidle, hdescend⟩ := outcome_cases hout
      exact hdescends ih hframe (keeps_rest (hreplaces ih) hframe hform hrest) hidle hdescend

end Settings

/-- The rules keep what they keep up. -/
theorem Upkeep.replaces {P : Form → Prop} {settings : Settings} {room : Nat} (hkeep : Upkeep P)
    (hnative : settings.registry.Native) (h : settings.Keeps P P room) :
    settings.Replaces P P room := by
  intro frame form entry args hframe hform hcall
  obtain ⟨head, rfl, hfind⟩ := Registry.of_invocation? hcall
  obtain ⟨-, -, hentry⟩ := hnative head entry hfind
  have hargs := fun arg ha => hkeep.items hform arg (List.mem_cons_of_mem _ ha)
  exact h.apply hkeep.toComposing id id hframe hentry (fun _ => hkeep.postponed)
    (fun _ => hkeep.leaving) hargs

/-! ## Names -/

/-- The names that a form is made of are right, those under quotes included. -/
def Form.Names (right : String → Prop) (form : Form) : Prop := ∀ name ∈ form.symbols, right name

/-- A property of names that the names in code have if the names it is made from do. -/
structure Naming (right : String → Prop) : Prop where
  written : ∀ name ∈ HostCode.names, right name
  ended : ∀ {name ending : String}, right name → ending ∈ ["-mode", "-map", "-hook"] →
    right (name ++ ending)

namespace Form

variable {right : String → Prop}

theorem names_symbol {name : String} : (Form.symbol name).Names right ↔ right name := by
  simp [Names, symbols]

theorem names_list {items : List Form} :
    (Form.list items).Names right ↔ ∀ item ∈ items, item.Names right := by
  constructor
  · exact fun h item hitem name hname => h name (mem_symbolsOf.mpr ⟨item, hitem, hname⟩)
  · intro h name hname
    obtain ⟨item, hitem, hmem⟩ := mem_symbolsOf.mp hname
    exact h item hitem name hmem

theorem names_call {head : String} {args : List Form} :
    (Form.call head args).Names right ↔ right head ∧ ∀ arg ∈ args, arg.Names right := by
  rw [call, names_list, List.forall_mem_cons, names_symbol]

theorem names_ne_iff {name : String} {form : Form} :
    form.Names (· ≠ name) ↔ name ∉ form.symbols :=
  ⟨fun h hmem => h name hmem rfl, fun h _ hmem heq => h (heq ▸ hmem)⟩

end Form

namespace Naming

variable {right : String → Prop} (h : Naming right)

include h

/-- Rules make code of right names from forms of right names. -/
theorem upkeep : Upkeep (Form.Names right) where
  name hname := Form.names_symbol.mpr (h.written _ hname)
  ended hname hending := Form.names_symbol.mpr (h.ended (Form.names_symbol.mp hname) hending)
  quote := id
  unquote := id
  function := id
  call hhead hargs := Form.names_call.mpr ⟨h.written _ (List.mem_of_mem_filter hhead), hargs⟩
  calls hitems := Form.names_list.mpr fun item hitem => (hitems item hitem).1
  items := Form.names_list.mp
  postponed hhead hargs := by
    have hwritten : ∀ name ∈ HostCode.postponing, name ∈ HostCode.names := by decide
    exact Form.names_call.mpr ⟨h.written _ (hwritten _ hhead), hargs⟩
  leaving htoken hvalue :=
    Form.names_call.mpr ⟨h.written _ (by decide), by simpa using ⟨htoken, hvalue⟩⟩

/-- What expansion goes down into it puts back in the place of what was there. -/
theorem keeps {settings : Settings} (hnative : settings.registry.Native) (room : Nat) :
    settings.Keeps (Form.Names right) (Form.Names right) room := by
  refine Settings.keeps_outcome (h.upkeep.replaces hnative) ?_ room
  intro room frame rested out ih hframe hrested _ hdescends
  cases hdescends with
  | items _ heach =>
      refine Form.names_list.mpr fun result hresult => ?_
      obtain ⟨item, hitem, hended⟩ := exists_mem_of_forall₂ heach.flip hresult
      exact ih hframe (Form.names_list.mp hrested item hitem) hended
  | @marked items inner hinner =>
      have hlist : (Form.list items).Names right := hrested
      exact show inner.Names right from ih hframe hlist hinner
  | data _ => exact hrested
  | passed _ _ => exact hrested

end Naming

theorem Setup.names_rooted {registry : Registry} {right : String → Prop} {name : Form}
    {body : List Form} (hroot : ∀ id, registry.contains id = true → right id)
    (hname : name.Names right) (hbody : ∀ form ∈ body, form.Names right)
    (rootRule : Option String) : ∀ form ∈ rooted registry rootRule name body, form.Names right :=
  keeps_rooted Form.names_list.mp
    (fun hknown hargs => Form.names_call.mpr ⟨hroot _ hknown, hargs⟩) hname hbody rootRule

end Rulebook
