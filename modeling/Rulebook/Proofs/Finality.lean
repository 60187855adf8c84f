import Rulebook.Proofs.EarlyExit
import Rulebook.Proofs.FixedPoint

/-!
# The code of a setup is final

A name can surface only where the head of a list is itself a list, and that list
invokes a rule. Call a form plain if there is no such list in it, quoted data and
vectors apart. The built-in rules keep forms plain: they put the forms they are
given behind names of the host's own and never at the head of a list, and where
they write a list of lists themselves, its first one is the binding of a
variable.

Going down into a plain form keeps it plain too. A head that is a list invokes
no rule, so it stays a list, and its own head stays what it was. Hence no name
surfaces, the results are settled, and so is the code of a setup, which puts
nothing around them but a `progn` or a `catch`.
-/

namespace Rulebook

namespace Form

/-- `Exposed part form`: `part` stands in `form` outside quotes and vectors. -/
inductive Exposed : Form → Form → Prop
  | root (form : Form) : Exposed form form
  | item {part form : Form} {items : List Form} (mem : part ∈ items)
      (within : Exposed (.list items) form) : Exposed part form
  | marked {part form : Form} (within : Exposed (.function part) form) : Exposed part form

/-- The forms directly inside a form, unless it is quoted or a vector. -/
def inside : Form → List Form
  | .list items => items
  | .function inner => [inner]
  | _ => []

theorem Exposed.inner {part form : Form} (h : part ∈ form.inside) : Exposed part form := by
  unfold inside at h
  split at h
  · exact .item h (.root _)
  · rw [List.mem_singleton.mp h]
    exact .marked (.root _)
  · cases h

theorem Exposed.trans {part middle form : Form} (h : Exposed part middle)
    (hmiddle : Exposed middle form) : Exposed part form := by
  induction h with
  | root => exact hmiddle
  | item hmem _ ih => exact .item hmem (ih hmiddle)
  | marked _ ih => exact .marked (ih hmiddle)

theorem exposed_iff {part form : Form} :
    Exposed part form ↔ part = form ∨ ∃ inner ∈ form.inside, Exposed part inner := by
  constructor
  · intro h
    induction h with
    | root => exact .inl rfl
    | item hmem _ ih =>
        rcases ih with rfl | ⟨inner, hinner, hexposed⟩
        · exact .inr ⟨_, hmem, .root _⟩
        · exact .inr ⟨inner, hinner, .item hmem hexposed⟩
    | marked _ ih =>
        rcases ih with rfl | ⟨inner, hinner, hexposed⟩
        · exact .inr ⟨_, List.mem_singleton.mpr rfl, .root _⟩
        · exact .inr ⟨inner, hinner, .marked hexposed⟩
  · rintro (rfl | ⟨inner, hinner, hexposed⟩)
    · exact .root _
    · exact hexposed.trans (.inner hinner)

end Form

namespace Registry

/-- No list outside quotes and vectors has an invocation of a rule for its first
element. -/
def Plain (registry : Registry) (form : Form) : Prop :=
  ∀ call items, Form.Exposed (.list (.list call :: items)) form →
    registry.invocation? (.list call) = none

variable {registry : Registry}

theorem plain_iff {form : Form} :
    registry.Plain form ↔
      (∀ call items, form = .list (.list call :: items) →
        registry.invocation? (.list call) = none) ∧
      ∀ inner ∈ form.inside, registry.Plain inner := by
  constructor
  · intro h
    constructor
    · intro call items heq
      exact h call items (heq ▸ .root _)
    · intro inner hinner call items hexposed
      exact h call items (hexposed.trans (.inner hinner))
  · rintro ⟨hform, hinside⟩ call items hexposed
    rcases Form.exposed_iff.mp hexposed with heq | ⟨inner, hinner, hexposed⟩
    · exact hform call items heq.symm
    · exact hinside inner hinner call items hexposed

theorem plain_list {items : List Form} :
    registry.Plain (.list items) ↔
      (∀ call rest, items = .list call :: rest → registry.invocation? (.list call) = none) ∧
      ∀ item ∈ items, registry.Plain item := by
  rw [plain_iff]
  simp only [Form.list.injEq, Form.inside]

theorem plain_function {inner : Form} :
    registry.Plain (.function inner) ↔ registry.Plain inner := by
  rw [plain_iff]
  simp [Form.inside]

/-- A form with nothing inside is plain. -/
theorem plain_of_inside {form : Form} (hlist : ∀ items, form ≠ .list items)
    (hinside : form.inside = []) : registry.Plain form := by
  rw [plain_iff, hinside]
  exact ⟨fun call items heq => absurd heq (hlist _), fun _ hinner => absurd hinner List.not_mem_nil⟩

theorem plain_symbol (name : String) : registry.Plain (.symbol name) :=
  plain_of_inside (fun _ heq => nomatch heq) rfl

theorem plain_quote (inner : Form) : registry.Plain (.quote inner) :=
  plain_of_inside (fun _ heq => nomatch heq) rfl

/-- A symbol at the head of a list is no invocation. -/
theorem plain_call (head : String) {args : List Form} (hargs : ∀ arg ∈ args, registry.Plain arg) :
    registry.Plain (.call head args) := by
  refine plain_list.mpr ⟨fun call rest heq => (nomatch heq), ?_⟩
  exact List.forall_mem_cons.mpr ⟨plain_symbol head, hargs⟩

/-- The rules keep forms plain that leave the names of the host's own alone. -/
theorem upkeep_plain (h : ∀ name ∈ HostCode.names, registry.contains name = false) :
    Upkeep registry.Plain where
  name _ := plain_symbol _
  ended _ _ := plain_symbol _
  quote _ := plain_quote _
  unquote _ := plain_symbol _
  function _ := plain_function.mpr (plain_symbol _)
  call _ hargs := plain_call _ hargs
  calls hitems := by
    refine plain_list.mpr ⟨fun call rest heq => ?_, fun item hi => (hitems item hi).1⟩
    obtain ⟨-, head, hhead, args, hcall⟩ := hitems (.list call) (by simp [heq])
    rw [hcall]
    exact invocation?_call (h head (List.mem_of_mem_filter hhead)) args
  items hlist := (plain_list.mp hlist).2
  postponed _ hargs := plain_call _ hargs
  leaving _ hvalue := plain_call _ (by simp [plain_quote, hvalue])

end Registry

/-! ## Expansion of plain forms -/

namespace Settings

variable {settings : Settings} {room : Nat} {frame : Frame}

/-- A list that invokes no rule stays a list. -/
theorem exists_list_of_outcome {items : List Form} {out : Form}
    (hidle : settings.registry.invocation? (.list items) = none)
    (h : settings.outcome room frame (.list items) = .ok out) : ∃ results, out = .list results := by
  cases room with
  | zero => cases h
  | succ room =>
      obtain ⟨rested, hrest, -, hdescends⟩ := outcome_cases h
      rw [rest_of_idle hidle] at hrest
      cases hrest
      cases hdescends with
      | items _ _ => exact ⟨_, rfl⟩
      | data _ => exact ⟨_, rfl⟩
      | passed hlist _ => exact absurd rfl (hlist _)

/-- Nothing but a list becomes a list. -/
theorem eq_list_of_outcome {form : Form} {results : List Form}
    (h : settings.outcome room frame form = .ok (.list results)) : ∃ items, form = .list items := by
  by_contra hlist
  have hidle := settings.registry.invocation?_of_ne_list fun items heq => hlist ⟨items, heq⟩
  cases room with
  | zero => cases h
  | succ room =>
      obtain ⟨rested, hrest, -, hdescends⟩ := outcome_cases h
      rw [rest_of_idle hidle] at hrest
      cases hrest
      cases hdescends <;> exact hlist ⟨_, rfl⟩

/-- A plain form that invokes no rule goes on to invoke none. -/
theorem invocation?_of_outcome {form out : Form} (hplain : settings.registry.Plain form)
    (hidle : settings.registry.invocation? form = none)
    (h : settings.outcome room frame form = .ok out) :
    settings.registry.invocation? out = none := by
  cases room with
  | zero => cases h
  | succ room =>
      obtain ⟨rested, hrest, -, hdescends⟩ := outcome_cases h
      rw [rest_of_idle hidle] at hrest
      cases hrest
      cases hdescends with
      | items _ heach =>
          cases heach with
          | nil => rfl
          | @cons first _ _ _ hfirst _ =>
              by_contra hcall
              obtain ⟨name, rfl, hknown⟩ := Registry.invocation?_ne_none_iff.mp hcall
              by_cases hlist : ∃ call, first = .list call
              · obtain ⟨call, rfl⟩ := hlist
                have hhead := (Registry.plain_list.mp hplain).1 call _ rfl
                obtain ⟨results, hresults⟩ := exists_list_of_outcome hhead hfirst
                cases hresults
              · have hsame := eq_symbol_of_outcome (fun call hc => hlist ⟨call, hc⟩) hfirst
                exact Registry.invocation?_ne_none_iff.mpr ⟨name, hsame, hknown⟩ hidle
      | marked _ => rfl
      | data _ => exact hidle
      | passed _ _ => exact hidle

variable (hnames : ∀ name ∈ HostCode.names, settings.registry.contains name = false)
  (hnative : settings.registry.Native)

include hnames hnative

/-- Expansion keeps forms plain. -/
theorem plain_outcome (room : Nat) :
    settings.Keeps settings.registry.Plain settings.registry.Plain room := by
  refine keeps_outcome ((Registry.upkeep_plain hnames).replaces hnative) ?_ room
  intro room frame rested out ih hframe hplain hidle hdescends
  cases hdescends with
  | @items items results _ heach =>
      obtain ⟨hhead, hitems⟩ := Registry.plain_list.mp hplain
      refine Registry.plain_list.mpr ⟨fun call rest heq => ?_, fun result hresult => ?_⟩
      · subst heq
        cases heach with
        | cons hfirst _ =>
            obtain ⟨inner, rfl⟩ := eq_list_of_outcome hfirst
            exact invocation?_of_outcome (hitems _ (by simp)) (hhead inner _ rfl) hfirst
      · obtain ⟨item, hitem, hended⟩ := exists_mem_of_forall₂ heach.flip hresult
        exact ih hframe (hitems item hitem) hended
  | marked hinner =>
      exact Registry.plain_function.mpr (ih hframe (Registry.plain_function.mp hplain) hinner)
  | data _ => exact hplain
  | passed _ _ => exact hplain

/-- No name surfaces in a plain form. -/
theorem not_surfaces_of_plain (hframe : frame.Keeps settings.registry.Plain) {form : Form}
    (hplain : settings.registry.Plain form) : ¬ settings.Surfaces frame room form := by
  intro hsurfaces
  have hrests : ∀ {room : Nat} {form rested : Form}, settings.registry.Plain form →
      settings.rest room frame form = .ok rested → settings.registry.Plain rested :=
    fun hform hrest => keeps_rest ((Registry.upkeep_plain hnames).replaces hnative
      (plain_outcome hnames hnative _)) hframe hform hrest
  induction hsurfaces with
  | head hrested hbecame _ =>
      have hhead := (Registry.plain_list.mp (hrests hplain hrested)).1 _ _ rfl
      obtain ⟨results, hresults⟩ := exists_list_of_outcome hhead hbecame
      cases hresults
  | item hrested _ hmem _ ih => exact ih ((Registry.plain_list.mp (hrests hplain hrested)).2 _ hmem)
  | marked hrested _ _ ih => exact ih (Registry.plain_function.mp (hrests hplain hrested))

/-- What a plain form is expanded to is settled. -/
theorem settled_of_plain (hframe : frame.Keeps settings.registry.Plain) {form out : Form}
    (hplain : settings.registry.Plain form) (h : settings.outcome room frame form = .ok out) :
    settings.registry.Settled out := by
  by_contra hunsettled
  exact not_surfaces_of_plain hnames hnative hframe hplain (surfaces_of_outcome h hunsettled)

end Settings

/-! ## Setups -/

/-- A form that is no `progn` is its own statement, unless it is `nil`. -/
theorem Form.eq_or_mem_of_mem_statements {form statement : Form} (h : statement ∈ form.statements) :
    statement = form ∨ ∃ forms, form = .call "progn" forms ∧ statement ∈ forms := by
  unfold statements at h
  split at h
  · next forms hcall =>
      cases form with
      | list items =>
          match items, hcall with
          | .symbol _ :: _, hcall =>
              cases hcall
              exact .inr ⟨forms, rfl, h⟩
      | _ => cases hcall
  · split at h
    · cases h
    · exact .inl (List.mem_singleton.mp h)

theorem Form.eq_or_mem_parts_of_mem_statements {form statement : Form}
    (h : statement ∈ form.statements) : statement = form ∨ statement ∈ form.parts := by
  rcases eq_or_mem_of_mem_statements h with heq | ⟨forms, rfl, hmem⟩
  · exact .inl heq
  · rw [call, parts_of_code (by simp [head?, call?])]
    exact .inr (List.mem_cons_of_mem _ hmem)

namespace Setup

theorem plain_rooted {registry : Registry} (rootRule : Option String) {name : Form}
    {body : List Form} (hname : registry.Plain name) (hbody : ∀ form ∈ body, registry.Plain form) :
    ∀ form ∈ rooted registry rootRule name body, registry.Plain form := by
  refine keeps_rooted (fun hlist => (Registry.plain_list.mp hlist).2) ?_ hname hbody rootRule
  exact fun _ hargs => Registry.plain_call _ hargs

theorem settled_assemble {registry : Registry}
    (hnames : ∀ name ∈ HostCode.names, registry.contains name = false) (token : Form)
    (guarded : Bool) {forms : List Form} (h : ∀ form ∈ forms, registry.Settled form) :
    registry.Settled (assemble token guarded forms) := by
  unfold assemble
  split
  · have hcatch := hnames "catch" (by decide)
    refine (Registry.settled_call hcatch (by decide)).mpr (List.forall_mem_cons.mpr ⟨?_, ?_⟩)
    · exact Registry.settled_iff.mpr ⟨rfl, fun _ hpart => nomatch hpart⟩
    · intro statement hstatement
      obtain ⟨form, hform, hin⟩ := List.mem_flatMap.mp hstatement
      rcases Form.eq_or_mem_parts_of_mem_statements hin with rfl | hpart
      · exact h statement hform
      · exact (Registry.settled_iff.mp (h form hform)).2 statement hpart
  · exact (Registry.settled_sequence (hnames "progn" (by decide))).mpr h

/-- What a setup puts around its forms takes one level. -/
theorem walk_assemble (token : Form) {guarded : Bool} {forms : List Form} {room : Nat}
    (h : ∀ form ∈ forms, form.walk ≤ room) (hguarded : guarded = true → 0 < room) :
    (assemble token guarded forms).walk ≤ room + 1 := by
  rw [Form.walk_eq]
  refine Nat.succ_le_succ ?_
  unfold assemble
  split
  · next hcatch =>
      have hroom := hguarded hcatch
      refine Form.walkOf_le fun part hpart => ?_
      rcases List.mem_cons.mp (Form.mem_of_mem_parts hpart) with rfl | hpart
      · exact hroom
      · rcases List.mem_cons.mp hpart with rfl | hpart
        · exact hroom
        · obtain ⟨form, hform, hin⟩ := List.mem_flatMap.mp hpart
          have hwalk := h form hform
          rcases Form.eq_or_mem_parts_of_mem_statements hin with rfl | hinner
          · exact hwalk
          · have hless := Form.walk_le_walkOf hinner
            rw [Form.walk_eq] at hwalk
            omega
  · exact Form.walkOf_parts_sequence h

section Finality

variable {options : SetupOptions} {name : Form} {body : List Form} {number : UInt64}
  {forms : List Form} {progress : Progress}

/-- The forms of a setup come to their outcomes one by one. -/
theorem outcomes_of_expanded {registry : Registry} {host : Host}
    (h : expanded registry host options name body number = (.ok forms, progress)) :
    List.Forall₂ (fun form result =>
        (⟨registry, options.limits, options.tracing⟩ : Settings).outcome options.limits.depth
          (host.frame.bind .quit (token number)) form = .ok result)
      (rooted registry options.rootRule name body) forms := by
  let settings : Settings := ⟨registry, options.limits, options.tracing⟩
  have hyields := Run.Yields.mapM
    (settings.expand_yields options.limits.depth 0 (host.frame.bind .quit (token number)))
    (rooted registry options.rootRule name body) {}
  exact mapM_eq_ok.mp (hyields.symm.trans (congrArg Prod.fst h))

/-- What expansion keeps, the code of a setup has if the setup and its context
do. -/
theorem keeps_run {registry : Registry} {host : Host} {R P : Form → Prop} (hkeep : Composing P)
    (houtcome : (⟨registry, options.limits, options.tracing⟩ : Settings).Keeps R P
      options.limits.depth)
    (hframe : (host.frame.bind .quit (token number)).Keeps R) (htoken : P (token number))
    (hrooted : ∀ form ∈ rooted registry options.rootRule name body, P form) {outcome : Outcome}
    {next : UInt64}
    (h : (run registry host options name body).perform number = (.ok outcome, next)) :
    P outcome.form := by
  rw [perform_run] at h
  split at h
  · split at h
    · cases h
    · next forms progress hexpanded =>
        cases h
        have hforms : ∀ form ∈ forms, P form := by
          intro form hform
          obtain ⟨source, hsource, hended⟩ :=
            exists_mem_of_forall₂ (outcomes_of_expanded hexpanded).flip hform
          exact houtcome hframe (hrooted source hsource) hended
        show P (assemble (token number) progress.guarded forms)
        unfold assemble
        split
        · refine hkeep.call (by decide) (List.forall_mem_cons.mpr ⟨hkeep.quote htoken, ?_⟩)
          intro statement hstatement
          obtain ⟨form, hform, hin⟩ := List.mem_flatMap.mp hstatement
          exact hkeep.statements (hforms form hform) statement hin
        · exact hkeep.sequence hforms
  · cases h

/-- A guarded setup had something to expand, and room to do it. -/
theorem depth_pos_of_guarded {registry : Registry} {host : Host}
    (h : expanded registry host options name body number = (.ok forms, progress))
    (hguarded : progress.guarded = true) : 0 < options.limits.depth := by
  have houtcomes := outcomes_of_expanded h
  unfold expanded at h
  cases hrooted : rooted registry options.rootRule name body with
  | nil =>
      rw [hrooted] at h
      cases h
      cases hguarded
  | cons form rest =>
      rw [hrooted] at houtcomes
      cases houtcomes with
      | cons hfirst _ =>
          refine Nat.pos_of_ne_zero fun hzero => ?_
          rw [hzero] at hfirst
          cases hfirst

theorem settled_of_expanded (hname : Catalogue.registry.Plain name)
    (hbody : ∀ form ∈ body, Catalogue.registry.Plain form)
    (h : expanded Catalogue.registry {} options name body number = (.ok forms, progress)) :
    ∀ form ∈ forms, Catalogue.registry.Settled form ∧ form.walk ≤ options.limits.depth := by
  have hframe : (Frame.empty.bind .quit (token number)).Keeps Catalogue.registry.Plain :=
    (Frame.Keeps.empty _).bind .quit (Registry.plain_symbol _)
  intro form hform
  obtain ⟨source, hsource, hended⟩ := exists_mem_of_forall₂ (outcomes_of_expanded h).flip hform
  have hplain := plain_rooted options.rootRule hname hbody source hsource
  let settings : Settings := ⟨Catalogue.registry, options.limits, options.tracing⟩
  have hsettled : settings.registry.Settled form :=
    Settings.settled_of_plain Catalogue.not_contains_names Catalogue.native_registry hframe hplain
      hended
  exact ⟨hsettled, Settings.walk_le_of_outcome hended⟩

end Finality

/-- The code of a setup with the built-in rules, from a plain name and body, is
final: expansion with one level more than the setup had leaves it as it is, in
whatever context, and applies no rule. -/
theorem expand_of_run (options : SetupOptions) {name : Form} {body : List Form}
    (hname : Catalogue.registry.Plain name) (hbody : ∀ form ∈ body, Catalogue.registry.Plain form)
    {number next : UInt64} {outcome : Outcome}
    (hrun : (run Catalogue.registry {} options name body).perform number = (.ok outcome, next))
    {limits : Limits} (hdepth : options.limits.depth + 1 ≤ limits.depth) (tracing : Bool)
    (frame : Frame) (before : Progress) :
    ((⟨Catalogue.registry, limits, tracing⟩ : Settings).expand limits.depth 0 frame
        outcome.form).perform before =
      (.ok outcome.form, before.reach outcome.form.walk) := by
  rw [perform_run, if_pos rfl] at hrun
  split at hrun
  · cases hrun
  · next forms progress hexpanded =>
      cases hrun
      let settings : Settings := ⟨Catalogue.registry, limits, tracing⟩
      have hforms := settled_of_expanded hname hbody hexpanded
      have hsettled : settings.registry.Settled (assemble (token number) progress.guarded forms) :=
        settled_assemble Catalogue.not_contains_names _ _ fun form hform => (hforms form hform).1
      have hwalk := walk_assemble (token number) (fun form hform => (hforms form hform).2)
        (depth_pos_of_guarded hexpanded)
      have hagain := Settings.expand_of_settled hsettled (Nat.le_trans hwalk hdepth) 0 frame before
      rwa [Nat.zero_add] at hagain

theorem expand_of_run_of_leaving :
    Catalogue.registry.Plain (.symbol "magit") ∧
    (∀ form ∈ leaving, Catalogue.registry.Plain form) ∧
    (run Catalogue.registry {} {} (.symbol "magit") leaving).perform 0 = (.ok leavingOutcome, 1) ∧
    ((⟨Catalogue.registry, ⟨257, 0⟩, true⟩ : Settings).expand 257 0 hookFrame
        leavingOutcome.form).perform {} = (.ok leavingOutcome.form, { deepest := 4 }) := by
  have hcall : ∀ {head : String} {arg : Form}, Catalogue.registry.Plain arg →
      Catalogue.registry.Plain (.call head [arg]) := by
    intro head arg harg
    refine Registry.plain_list.mpr ⟨fun call rest heq => (nomatch heq), ?_⟩
    exact List.forall_mem_cons.mpr ⟨Registry.plain_symbol head, List.forall_mem_singleton.mpr harg⟩
  have hbody : ∀ form ∈ leaving, Catalogue.registry.Plain form := by
    refine List.forall_mem_cons.mpr ⟨hcall ?_, List.forall_mem_singleton.mpr (hcall ?_)⟩
    · exact Registry.plain_of_inside (fun _ heq => nomatch heq) rfl
    · exact Registry.plain_symbol "f"
  have hrun : (run Catalogue.registry {} {} (.symbol "magit") leaving).perform 0 =
      (.ok leavingOutcome, 1) := by rfl
  have hfinal := expand_of_run {} (Registry.plain_symbol "magit") hbody hrun
    (show 256 + 1 ≤ (⟨257, 0⟩ : Limits).depth by decide) true hookFrame {}
  exact ⟨Registry.plain_symbol "magit", hbody, hrun, hfinal⟩

end Setup

end Rulebook
