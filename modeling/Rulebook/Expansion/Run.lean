import Rulebook.Expansion.Means

/-!
# Runs

A run makes a result or ends in a fault, and either way leaves a record of how
far it went. The record holds no limit: what a run may do is decided outside
it, so runs under different limits can be compared step for step.
-/

namespace Rulebook

/-- What has happened in a run so far. -/
structure Progress where
  /-- Whether an early exit was produced. -/
  guarded : Bool := false
  /-- The number of invocations replaced. -/
  replacements : Nat := 0
  /-- The deepest level reached. -/
  deepest : Nat := 0
  /-- The number of replacements made by each rule that made any. -/
  tally : List (String × Nat) := []
  /-- The rules in the order in which their replacements were complete, each
  with its level. Kept on request. -/
  trace : Array (String × Nat) := #[]
deriving Repr, DecidableEq, Inhabited

/-- A tally with one more for `id`. -/
def Tally.increment (id : String) : List (String × Nat) → List (String × Nat)
  | [] => [(id, 1)]
  | (other, count) :: rest =>
    if other = id then (other, count + 1) :: rest
    else (other, count) :: Tally.increment id rest

namespace Progress

/-- Notes that level `depth` was reached. -/
def reach (progress : Progress) (depth : Nat) : Progress :=
  { progress with deepest := max progress.deepest depth }

/-- Notes that rule `id` made a replacement at level `depth`. -/
def record (progress : Progress) (tracing : Bool) (id : String) (depth : Nat) : Progress :=
  { progress with
    replacements := progress.replacements + 1
    tally := Tally.increment id progress.tally
    trace := if tracing then progress.trace.push (id, depth) else progress.trace }

/-- Notes that an early exit was produced. -/
def guard (progress : Progress) : Progress := { progress with guarded := true }

/-- The number of replacements that rule `id` made. -/
def countOf (progress : Progress) (id : String) : Nat := (progress.tally.lookup id).getD 0

end Progress

/-- A computation with a state goes on from the state that the one before it left,
and not at all after a fault. -/
theorem run_bind {σ α β : Type} (first : ExceptT Fault (StateM σ) α)
    (next : α → ExceptT Fault (StateM σ) β) (state : σ) :
    (ExceptT.run (first >>= next)).run state =
      match (ExceptT.run first).run state with
      | (.ok value, after) => (ExceptT.run (next value)).run after
      | (.error fault, after) => (.error fault, after) := by
  simp only [ExceptT.run, StateT.run]
  rcases h : first state with ⟨_ | _, _⟩
  · simp [bind, ExceptT.bind, ExceptT.mk, StateT.bind, ExceptT.bindCont, h]
    rfl
  · simp [bind, ExceptT.bind, ExceptT.mk, StateT.bind, ExceptT.bindCont, h]

/-- A computation that may end in a fault and keeps its progress either way. -/
abbrev Run (α : Type) := ExceptT Fault (StateM Progress) α

namespace Run

/-- Carries out a run from the progress made before it. -/
def perform {α : Type} (run : Run α) (progress : Progress) : Except Fault α × Progress :=
  (ExceptT.run run).run progress

/-- Changes the progress. -/
def note (change : Progress → Progress) : Run Unit := modify change

@[simp]
theorem perform_pure {α : Type} (value : α) (progress : Progress) :
    (pure value : Run α).perform progress = (.ok value, progress) := rfl

@[simp]
theorem perform_throw {α : Type} (fault : Fault) (progress : Progress) :
    (throw fault : Run α).perform progress = (.error fault, progress) := rfl

@[simp]
theorem perform_note (change : Progress → Progress) (progress : Progress) :
    (note change).perform progress = (.ok (), change progress) := rfl

@[simp]
theorem perform_settled {α : Type} (outcome : Except Fault α) (progress : Progress) :
    (Means.settled outcome : Run α).perform progress = (outcome, progress) := by
  cases outcome <;> rfl

/-- A run goes on from the progress that the run before it left, and not at all
after a fault. -/
theorem perform_bind {α β : Type} (run : Run α) (next : α → Run β) (progress : Progress) :
    (run >>= next).perform progress =
      match run.perform progress with
      | (.ok value, after) => (next value).perform after
      | (.error fault, after) => (.error fault, after) := by
  rw [perform, run_bind, perform]
  rcases (ExceptT.run run).run progress with ⟨_ | _, _⟩ <;> rfl

theorem perform_map {α β : Type} (run : Run α) (f : α → β) (progress : Progress) :
    (f <$> run).perform progress =
      ((run.perform progress).1.map f, (run.perform progress).2) := by
  rw [map_eq_pure_bind, perform_bind]
  rcases run.perform progress with ⟨_ | _, _⟩ <;> rfl

end Run

end Rulebook
