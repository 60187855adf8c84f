import Mathlib.Data.List.Forall2
import Rulebook.Expansion.Run

/-!
# Steps one after the other

A step that may fail and a run that keeps its progress are put together alike:
the whole succeeds if every part does, each from where the one before it left
off. These are the ways to take such a success, or a fault, apart.
-/

namespace Rulebook

/-- A step that goes on after another succeeds only if both do. -/
theorem bind_eq_ok {ε α β : Type} {first : Except ε α} {next : α → Except ε β} {result : β} :
    first >>= next = .ok result ↔ ∃ value, first = .ok value ∧ next value = .ok result := by
  cases first with
  | error fault =>
      constructor
      · intro h
        cases h
      · rintro ⟨value, h, -⟩
        cases h
  | ok value =>
      constructor
      · intro h
        exact ⟨value, rfl, h⟩
      · rintro ⟨other, h, hnext⟩
        cases h
        exact hnext

/-- A step that goes on after another fails if either does. -/
theorem bind_eq_error {ε α β : Type} {first : Except ε α} {next : α → Except ε β} {fault : ε} :
    first >>= next = .error fault ↔
      first = .error fault ∨ ∃ value, first = .ok value ∧ next value = .error fault := by
  cases first with
  | error other =>
      constructor
      · intro h
        cases h
        exact .inl rfl
      · rintro (h | ⟨value, h, -⟩)
        · cases h
          rfl
        · cases h
  | ok value =>
      constructor
      · intro h
        exact .inr ⟨value, rfl, h⟩
      · rintro (h | ⟨other, h, hnext⟩)
        · cases h
        · cases h
          exact hnext

theorem map_eq_ok {ε α β : Type} {step : Except ε α} {f : α → β} {result : β} :
    step.map f = .ok result ↔ ∃ value, step = .ok value ∧ f value = result := by
  cases step with
  | error fault => simp [Except.map]
  | ok value => simp [Except.map]

theorem map_eq_error {ε α β : Type} {step : Except ε α} {f : α → β} {fault : ε} :
    step.map f = .error fault ↔ step = .error fault := by
  cases step with
  | error other => simp [Except.map]
  | ok value => simp [Except.map]

/-- A step taken for each of several items succeeds if it does for each item. -/
theorem mapM_eq_ok {ε α β : Type} {turn : α → Except ε β} {items : List α} {results : List β} :
    items.mapM turn = .ok results ↔
      List.Forall₂ (fun item result => turn item = .ok result) items results := by
  induction items generalizing results with
  | nil =>
      constructor
      · intro h
        cases h
        exact .nil
      · rintro ⟨⟩
        rfl
  | cons item items ih =>
      rw [List.mapM_cons]
      constructor
      · intro h
        obtain ⟨first, hfirst, h⟩ := bind_eq_ok.mp h
        obtain ⟨rest, hrest, h⟩ := bind_eq_ok.mp h
        cases h
        exact .cons hfirst (ih.mp hrest)
      · rintro (_ | ⟨hfirst, hrest⟩)
        exact bind_eq_ok.mpr ⟨_, hfirst, bind_eq_ok.mpr ⟨_, ih.mpr hrest, rfl⟩⟩

/-- A step taken for each of several items fails with the first of them that
does. -/
theorem mapM_eq_error {ε α β : Type} {turn : α → Except ε β} {items : List α} {fault : ε} :
    items.mapM turn = .error fault ↔
      ∃ before item after, items = before ++ item :: after ∧
        (∀ one ∈ before, ∃ result, turn one = .ok result) ∧ turn item = .error fault := by
  induction items with
  | nil =>
      constructor
      · intro h
        cases h
      · rintro ⟨before, item, after, heq, -⟩
        simp at heq
  | cons first items ih =>
      rw [List.mapM_cons]
      cases hfirst : turn first with
      | error other =>
          constructor
          · intro h
            cases h
            exact ⟨[], first, items, rfl, fun one ho => absurd ho List.not_mem_nil, hfirst⟩
          · rintro ⟨before, item, after, heq, hbefore, hitem⟩
            cases before with
            | nil =>
                obtain ⟨rfl, -⟩ := List.cons.inj heq
                rw [hfirst] at hitem
                cases hitem
                rfl
            | cons one before =>
                obtain ⟨rfl, -⟩ := List.cons.inj heq
                obtain ⟨result, hresult⟩ := hbefore first (by simp)
                rw [hfirst] at hresult
                cases hresult
      | ok result =>
          have hrest : ((.ok result : Except ε β) >>= fun one => do
              let rest ← items.mapM turn
              return one :: rest) = .error fault ↔ items.mapM turn = .error fault := by
            cases items.mapM turn with
            | error other =>
                constructor
                · intro h
                  cases h
                  rfl
                · intro h
                  cases h
                  rfl
            | ok rest =>
                constructor
                · intro h
                  cases h
                · intro h
                  cases h
          rw [hrest, ih]
          constructor
          · rintro ⟨before, item, after, rfl, hbefore, hitem⟩
            exact ⟨first :: before, item, after, rfl,
              List.forall_mem_cons.mpr ⟨⟨result, hfirst⟩, hbefore⟩, hitem⟩
          · rintro ⟨before, item, after, heq, hbefore, hitem⟩
            cases before with
            | nil =>
                obtain ⟨rfl, -⟩ := List.cons.inj heq
                rw [hfirst] at hitem
                cases hitem
            | cons one before =>
                obtain ⟨rfl, rfl⟩ := List.cons.inj heq
                exact ⟨before, item, after, rfl, (List.forall_mem_cons.mp hbefore).2, hitem⟩

/-- A state carried through several items is lost at the first of them whose
step fails. -/
theorem foldlM_eq_error {ε α σ : Type} {turn : σ → α → Except ε σ} {items : List α} {state : σ}
    {fault : ε} :
    items.foldlM turn state = .error fault ↔
      ∃ before item after between, items = before ++ item :: after ∧
        before.foldlM turn state = .ok between ∧ turn between item = .error fault := by
  constructor
  · intro h
    induction items generalizing state with
    | nil => cases h
    | cons first items ih =>
        rw [List.foldlM_cons] at h
        rcases bind_eq_error.mp h with hfirst | ⟨next, hfirst, hrest⟩
        · exact ⟨[], first, items, state, rfl, rfl, hfirst⟩
        · obtain ⟨before, item, after, between, rfl, hbefore, hitem⟩ := ih hrest
          refine ⟨first :: before, item, after, between, rfl, ?_, hitem⟩
          rw [List.foldlM_cons]
          exact bind_eq_ok.mpr ⟨next, hfirst, hbefore⟩
  · rintro ⟨before, item, after, between, rfl, hbefore, hitem⟩
    rw [List.foldlM_append]
    refine bind_eq_error.mpr (.inr ⟨between, hbefore, ?_⟩)
    rw [List.foldlM_cons]
    exact bind_eq_error.mpr (.inl hitem)

theorem exists_mem_of_forall₂ {α β : Type} {relates : α → β → Prop} {items : List α}
    {results : List β} (h : List.Forall₂ relates items results) {item : α} (hi : item ∈ items) :
    ∃ result ∈ results, relates item result := by
  induction h with
  | nil => cases hi
  | cons hfirst hrest ih =>
      rcases List.mem_cons.mp hi with rfl | hi
      · exact ⟨_, by simp, hfirst⟩
      · obtain ⟨result, hr, hrelates⟩ := ih hi
        exact ⟨result, by simp [hr], hrelates⟩

namespace Run

/-- How a run of two parts came to a result. -/
theorem perform_bind_ok {α β : Type} {run : Run α} {next : α → Run β} {progress after : Progress}
    {result : β} (h : (run >>= next).perform progress = (.ok result, after)) :
    ∃ value between, run.perform progress = (.ok value, between) ∧
      (next value).perform between = (.ok result, after) := by
  rw [perform_bind] at h
  split at h
  · next value between hrun => exact ⟨value, between, hrun, h⟩
  · injection h with h
    cases h

/-- How a run of two parts came to a fault. -/
theorem perform_bind_error {α β : Type} {run : Run α} {next : α → Run β}
    {progress after : Progress} {fault : Fault}
    (h : (run >>= next).perform progress = (.error fault, after)) :
    run.perform progress = (.error fault, after) ∨
      ∃ value between, run.perform progress = (.ok value, between) ∧
        (next value).perform between = (.error fault, after) := by
  rw [perform_bind] at h
  split at h
  · next value between hrun => exact .inr ⟨value, between, hrun, h⟩
  · next other between hrun =>
      injection h with hfault hafter
      injection hfault with hfault
      subst hfault hafter
      exact .inl hrun

theorem ext {α : Type} {run other : Run α} (h : ∀ progress, run.perform progress =
    other.perform progress) : run = other :=
  funext h

/-- What a run goes on with matters only for the results it comes to. -/
theorem bind_congr {α β : Type} {run : Run α} {next other : α → Run β}
    (h : ∀ progress value after, run.perform progress = (.ok value, after) →
      next value = other value) : run >>= next = run >>= other := by
  refine ext fun progress => ?_
  rw [perform_bind, perform_bind]
  split
  · next value after hrun => rw [h progress value after hrun]
  · rfl

theorem perform_bind_of_ok {α β : Type} {run : Run α} {next : α → Run β}
    {progress between : Progress} {value : α} (h : run.perform progress = (.ok value, between)) :
    (run >>= next).perform progress = (next value).perform between := by
  rw [perform_bind, h]

theorem perform_bind_of_error {α β : Type} {run : Run α} {next : α → Run β}
    {progress between : Progress} {fault : Fault}
    (h : run.perform progress = (.error fault, between)) :
    (run >>= next).perform progress = (.error fault, between) := by
  rw [perform_bind, h]

end Run

end Rulebook
