import Mathlib.Data.List.Nodup
import Mathlib.Data.List.TakeWhile
import Rulebook.Proofs.Evaluation

/-!
# Assignments edit lists as sets

The expression that an edit comes to binds two names of its own around the
value and the list it was given. Both are bound at once and only the edit's own
code stands under them, so it makes no difference what names the value, the
list's variable or the code around are using (`eval_unlessMember`). Added to a
list that has it already, a value changes nothing; and a list without duplicates
stays one.

All this is said of any `Place` that is read and written as a variable should
be (`Place.Holds`). Options and buffer-local variables are.
-/

namespace Rulebook

open Evaluation

/-- The form that asks for an edit of a variable. -/
def Edit.target (key : String) : Edit → Form
  | .set => .symbol key
  | .append => .call "append" [.symbol key]
  | .prepend => .call "prepend" [.symbol key]
  | .remove => .call "remove" [.symbol key]

theorem Target.ofForm_target (edit : Edit) (key : String) :
    Target.ofForm (edit.target key) = .ok ⟨edit, key⟩ := by
  cases edit <;> rfl

theorem Edit.target_of_ofName? {name : String} {edit : Edit} (h : Edit.ofName? name = some edit)
    (key : String) : edit.target key = .call name [.symbol key] := by
  unfold Edit.ofName? at h
  split at h <;> cases h <;> rfl

/-- There are no other targets. -/
theorem Target.ofForm_of_ne_target {form : Form} (h : ∀ (edit : Edit) key, form ≠ edit.target key) :
    Target.ofForm form = .error (.unknownTarget form) := by
  unfold Target.ofForm
  split
  case h_1 key => exact absurd rfl (h .set key)
  case h_2 name key =>
    cases hname : Edit.ofName? name with
    | some edit => exact absurd (Edit.target_of_ofName? hname key).symm (h edit key)
    | none => rfl
  case h_3 => rfl

/-- What an edit by a value makes of a list. -/
def Edit.stored (value : Value) (old : List Value) : Edit → Value
  | .set => value
  | .append => .ofList (if value ∈ old then old else old ++ [value])
  | .prepend => .ofList (if value ∈ old then old else value :: old)
  | .remove => .ofList (old.filter (· ≠ value))

/-- The function that an option's definition names under a property, or else
the given one. -/
def Evaluation.World.accessor (world : World) (key property fallback : String) : Value :=
  if world.property key property = .nil then .symbol fallback else world.property key property

namespace Place

/-- Under the given lexical variables the place's expressions read the variable
`key` and store the value of an expression in it. Evaluating the expression is
all else that storing does. -/
structure Holds (place : Place) (world : World) (locals : Locals) (key : String) : Prop where
  read : ∀ {memory : Memory} {value : Value}, memory key = some value →
    eval world (place.read (.symbol key)) locals memory = some (value, memory)
  write : ∀ {form : Form} {before after : Memory} {value : Value},
    eval world form locals before = some (value, after) →
      ∃ result, eval world (place.write (.symbol key) form) locals before =
        some (result, Function.update after key (some value))

/-- An assignment is accepted, and its code takes one memory to another. -/
def Performs (place : Place) (world : World) (locals : Locals) (target value : Form)
    (before after : Memory) : Prop :=
  ∃ code result, place.assign target value = .ok code ∧
    eval world code locals before = some (result, after)

section Lawful

variable {world : World} {locals : Locals} {key : String}

theorem holds_localPlace (hkey : key ≠ "nil") (hfree : locals.lookup key = none) :
    Builtin.localPlace.Holds world locals key where
  read {memory value} hvalue := by
    simp [Builtin.localPlace, eval, lookup?, hkey, hfree, hvalue]
  write {form before after value} hform := by
    refine ⟨value, ?_⟩
    change (eval world form locals before).bind _ = _
    rw [hform]
    rfl

/-- The templates `(symbol-value '$k)` and `(set '$k $v)` are a variable in any
code. -/
theorem holds_ofTemplates :
    (ofTemplates (.call "symbol-value" [.quote (.symbol "$k")])
      (.call "set" [.quote (.symbol "$k"), .symbol "$v"])).Holds world locals key where
  read {memory value} hvalue := by
    refine eval_operation rfl (evalAll_single rfl) ?_
    change (memory key).map (·, memory) = _
    rw [hvalue]
    rfl
  write {form before after value} hform :=
    ⟨value, eval_operation rfl (evalAll_cons rfl (evalAll_single hform)) rfl⟩

theorem eval_customFunction (property fallback : String) (memory : Memory) :
    eval world (HostCode.customFunction (.symbol key) property fallback) locals memory =
      some (world.accessor key property fallback, memory) := by
  have hget : eval world (.call "get" [.quote (.symbol key), .quote (.symbol property)]) locals
      memory = some (world.property key property, memory) :=
    eval_operation rfl (evalAll_cons rfl (evalAll_single rfl)) rfl
  have hfallback : eval world (.function (.symbol fallback)) locals memory =
      some (.symbol fallback, memory) := rfl
  refine (eval_or_pair hget hfallback).trans ?_
  rw [World.accessor]
  split <;> rfl

/-- An option is read and written by the functions that its definition names.
Where these do what they are there for and the definition is loaded, the option
is a variable like any other. -/
theorem holds_optionPlace
    (hload : ∀ memory, ∃ result, world.evaluate
      (.call "custom-load-symbol" [.quote (.symbol key)]) locals memory = some (result, memory))
    (hget : ∀ memory value, memory key = some value →
      world.call (world.accessor key "custom-get" "symbol-value") [.symbol key] memory =
        some (value, memory))
    (hset : ∀ memory value, ∃ result,
      world.call (world.accessor key "custom-set" "set-default") [.symbol key, value] memory =
        some (result, Function.update memory key (some value))) :
    Builtin.optionPlace.Holds world locals key where
  read {memory value} hvalue := by
    have hargs : evalAll world
        [HostCode.customFunction (.symbol key) "custom-get" "symbol-value", .quote (.symbol key)]
        locals memory =
          some ([world.accessor key "custom-get" "symbol-value", .symbol key], memory) :=
      evalAll_cons (eval_customFunction _ _ memory) (evalAll_single rfl)
    exact (eval_funcall hargs).trans (hget memory value hvalue)
  write {form before after value} hform := by
    obtain ⟨loaded, hloaded⟩ := hload before
    obtain ⟨result, hstored⟩ := hset after value
    have hargs : evalAll world
        [HostCode.customFunction (.symbol key) "custom-set" "set-default", .quote (.symbol key),
          form] locals before =
          some ([world.accessor key "custom-set" "set-default", .symbol key, value], after) :=
      evalAll_cons (eval_customFunction _ _ before) (evalAll_cons rfl (evalAll_single hform))
    exact ⟨result, eval_sequence_pair hloaded ((eval_funcall hargs).trans hstored)⟩

end Lawful

section Edits

variable {place : Place} {world : World} {locals : Locals} {key : String} {form changed : Form}
  {before after : Memory} {value new : Value} {old : List Value}

/-- The lexical variables that the code of an edit sees. -/
def editing (value : Value) (old : List Value) (locals : Locals) : Locals :=
  ("setup--old", .ofList old) :: ("setup--value", value) :: locals

theorem eval_valueName (memory : Memory) :
    eval world valueName (editing value old locals) memory = some (value, memory) := by
  simp [valueName, editing, eval, lookup?, List.lookup_cons]

theorem eval_oldName (memory : Memory) :
    eval world oldName (editing value old locals) memory = some (.ofList old, memory) := by
  simp [oldName, editing, eval, lookup?]

/-- The value and the list are worked out in the code around, whatever names
they use, and only `changed` sees them bound. What `member` finds is the rest of
the list from the value on, which is empty just when the value is not there. -/
theorem eval_unlessMember (hplace : place.Holds world locals key)
    (hvalue : eval world form locals before = some (value, after))
    (hold : after key = some (.ofList old))
    (hchanged : eval world changed (editing value old locals) after = some (new, after)) :
    eval world (place.unlessMember (.symbol key) form changed) locals before =
      some (if value ∈ old then .ofList old else new, after) := by
  have hbindings : evalBindings world
      [.list [valueName, form], .list [oldName, place.read (.symbol key)]] locals before =
        some ([("setup--value", value), ("setup--old", .ofList old)], after) := by
    simp [evalBindings, valueName, oldName, hvalue, hplace.read hold]
  have hmember : eval world (.call "member" [valueName, oldName]) (editing value old locals) after =
      some (.ofList (old.dropWhile (· ≠ value)), after) :=
    eval_operation rfl (evalAll_cons (eval_valueName after) (evalAll_single (eval_oldName after)))
      (by simp [Operation.run?])
  have hfound : Value.ofList (old.dropWhile (· ≠ value)) = .nil ↔ value ∉ old := by
    simp [List.dropWhile_eq_nil_iff, List.forall_mem_ne']
  refine (eval_let hbindings _).trans ((eval_if hmember _ _).trans ?_)
  by_cases hmem : value ∈ old
  · rw [if_neg (fun h => hfound.mp h hmem), if_pos hmem]
    exact eval_oldName after
  · rw [if_pos (hfound.mpr hmem), if_neg hmem]
    exact hchanged

theorem Holds.eval_edited (hplace : place.Holds world locals key)
    (hvalue : eval world form locals before = some (value, after))
    (hold : after key = some (.ofList old)) (edit : Edit) :
    eval world (place.edited edit (.symbol key) form) locals before =
      some (edit.stored value old, after) := by
  cases edit with
  | set => exact hvalue
  | append =>
    have hlist : eval world (.call "list" [valueName]) (editing value old locals) after =
        some (.ofList [value], after) :=
      eval_operation rfl (evalAll_single (eval_valueName after)) rfl
    have happend : eval world (.call "append" [oldName, .call "list" [valueName]])
        (editing value old locals) after = some (.ofList (old ++ [value]), after) :=
      eval_operation rfl (evalAll_cons (eval_oldName after) (evalAll_single hlist))
        (by rw [Operation.run?, Value.append?_ofList]; rfl)
    refine (eval_unlessMember hplace hvalue hold happend).trans ?_
    rw [Edit.stored, apply_ite Value.ofList]
  | prepend =>
    have hcons : eval world (.call "cons" [valueName, oldName]) (editing value old locals) after =
        some (.ofList (value :: old), after) :=
      eval_operation rfl
        (evalAll_cons (eval_valueName after) (evalAll_single (eval_oldName after))) rfl
    refine (eval_unlessMember hplace hvalue hold hcons).trans ?_
    rw [Edit.stored, apply_ite Value.ofList]
  | remove =>
    exact eval_operation rfl (evalAll_cons hvalue (evalAll_single (hplace.read hold)))
      (by simp [Operation.run?, Edit.stored])

/-- Whatever the variable held, setting it stores the value. -/
theorem Holds.performs_set (hplace : place.Holds world locals key)
    (hvalue : eval world form locals before = some (value, after)) :
    place.Performs world locals (.symbol key) form before
      (Function.update after key (some value)) := by
  obtain ⟨result, hresult⟩ := hplace.write hvalue
  exact ⟨_, result, rfl, hresult⟩

theorem Holds.performs_edit (hplace : place.Holds world locals key)
    (hvalue : eval world form locals before = some (value, after))
    (hold : after key = some (.ofList old)) (edit : Edit) :
    place.Performs world locals (edit.target key) form before
      (Function.update after key (some (edit.stored value old))) := by
  obtain ⟨result, hresult⟩ := hplace.write (hplace.eval_edited hvalue hold edit)
  refine ⟨_, result, ?_, hresult⟩
  rw [assign, Target.ofForm_target]
  rfl

end Edits

end Place

namespace Edit

/-- The edits that add a value to a list. -/
def Adds (edit : Edit) : Prop := edit = .append ∨ edit = .prepend

variable {edit : Edit} {value : Value} {old : List Value}

theorem Adds.stored_of_mem (hedit : edit.Adds) (hmem : value ∈ old) :
    edit.stored value old = .ofList old := by
  rcases hedit with rfl | rfl <;> simp [stored, hmem]

theorem Adds.exists_stored (hedit : edit.Adds) (value : Value) (old : List Value) :
    ∃ new, edit.stored value old = .ofList new ∧ value ∈ new ∧ (old.Nodup → new.Nodup) := by
  by_cases hmem : value ∈ old
  · exact ⟨old, hedit.stored_of_mem hmem, hmem, id⟩
  rcases hedit with rfl | rfl
  · refine ⟨old ++ [value], by simp [stored, hmem], by simp, fun hold => ?_⟩
    exact List.Nodup.append hold (List.nodup_singleton value) (by simpa using hmem)
  · exact ⟨value :: old, by simp [stored, hmem], by simp, fun hold => List.Nodup.cons hmem hold⟩

end Edit

/-- At a place that is read and written as a variable should be, every target
does what it says with the value that the expression has in the code around.
What is added is a member afterwards and is there once if everything was, and
adding it again changes nothing. What is removed is gone. No other targets are
accepted. -/
theorem Place.assign_edits_as_set {place : Place} {world : World} {locals : Locals} {key : String}
    {form : Form} {before after : Memory} {value : Value} (hplace : place.Holds world locals key)
    (hvalue : eval world form locals before = some (value, after)) :
    place.Performs world locals (.symbol key) form before
      (Function.update after key (some value)) ∧
    (∀ old, after key = some (.ofList old) →
      (∀ edit : Edit, place.Performs world locals (edit.target key) form before
        (Function.update after key (some (edit.stored value old)))) ∧
      (∀ edit : Edit, edit.Adds → ∃ new, edit.stored value old = .ofList new ∧ value ∈ new ∧
        (old.Nodup → new.Nodup) ∧
        ∀ later : Memory,
          eval world form locals (Function.update after key (some (.ofList new))) =
            some (value, later) →
          later key = some (.ofList new) →
          place.Performs world locals (edit.target key) form
            (Function.update after key (some (.ofList new))) later) ∧
      ∃ new, Edit.remove.stored value old = .ofList new ∧ value ∉ new) ∧
    ∀ target, (∀ (edit : Edit) name, target ≠ edit.target name) →
      place.assign target form = .error (.unknownTarget target) := by
  refine ⟨hplace.performs_set hvalue,
    fun old hold => ⟨hplace.performs_edit hvalue hold, ?_, ?_⟩, ?_⟩
  · intro edit hedit
    obtain ⟨new, hnew, hmem, hnodup⟩ := hedit.exists_stored value old
    refine ⟨new, hnew, hmem, hnodup, fun later hagain hlater => ?_⟩
    have hsecond := hplace.performs_edit hagain hlater edit
    have hsame : Function.update later key (some (.ofList new)) = later := by
      rw [← hlater, Function.update_eq_self]
    rwa [hedit.stored_of_mem hmem, hsame] at hsecond
  · exact ⟨old.filter (· ≠ value), rfl, by simp⟩
  · intro target htarget
    rw [assign, Target.ofForm_of_ne_target htarget]
    rfl

theorem Place.holds_optionPlace_bare (locals : Locals) (key : String) :
    Builtin.optionPlace.Holds .bare locals key :=
  holds_optionPlace (fun _ => ⟨.nil, rfl⟩)
    (fun memory value hvalue => by
      simp [World.accessor, World.bare, World.call, Operation.ofName?, Operation.run?, hvalue])
    (fun _ value => ⟨value, rfl⟩)

/-- The variable has the name that the old list is bound to, and the value
expressions use the names that are bound. -/
theorem Place.assign_edits_as_set_of_clashing_names :
    eval .bare (.call "list" [.symbol "setup--value", .symbol "setup--old"])
      [("setup--value", .int 7)] (fun _ => some (.ofList [.int 7])) =
        some (.ofList [.int 7, .ofList [.int 7]], fun _ => some (.ofList [.int 7])) ∧
    Builtin.localPlace.Performs .bare [("setup--value", .int 7)]
      (.call "append" [.symbol "setup--old"])
      (.call "list" [.symbol "setup--value", .symbol "setup--old"])
      (fun _ => some (.ofList [.int 7]))
      (Function.update (fun _ => some (.ofList [.int 7])) "setup--old"
        (some (.ofList [.int 7, .ofList [.int 7, .ofList [.int 7]]]))) ∧
    Builtin.optionPlace.Performs .bare [("setup--value", .int 7)]
      (.call "remove" [.symbol "setup--old"]) (.symbol "setup--value")
      (fun _ => some (.ofList [.int 7]))
      (Function.update (fun _ => some (.ofList [.int 7])) "setup--old" (some .nil)) ∧
    (ofTemplates (.call "symbol-value" [.quote (.symbol "$k")])
        (.call "set" [.quote (.symbol "$k"), .symbol "$v"])).Performs
      .bare [("setup--value", .int 7)] (.call "prepend" [.symbol "setup--old"])
      (.call "list" [.symbol "setup--value", .symbol "setup--old"])
      (fun _ => some (.ofList [.int 7]))
      (Function.update (fun _ => some (.ofList [.int 7])) "setup--old"
        (some (.ofList [.ofList [.int 7, .ofList [.int 7]], .int 7]))) := by
  have hvalue : eval .bare (.call "list" [.symbol "setup--value", .symbol "setup--old"])
      [("setup--value", .int 7)] (fun _ => some (.ofList [.int 7])) =
        some (.ofList [.int 7, .ofList [.int 7]], fun _ => some (.ofList [.int 7])) := rfl
  have hlexical : eval .bare (.symbol "setup--value") [("setup--value", .int 7)]
      (fun _ => some (.ofList [.int 7])) = some (.int 7, fun _ => some (.ofList [.int 7])) := rfl
  have hlocal : Builtin.localPlace.Holds .bare [("setup--value", .int 7)] "setup--old" :=
    holds_localPlace (by decide) (by decide)
  have hoption := holds_optionPlace_bare [("setup--value", .int 7)] "setup--old"
  exact ⟨hvalue, ((assign_edits_as_set hlocal hvalue).2.1 [.int 7] rfl).1 .append,
    ((assign_edits_as_set hoption hlexical).2.1 [.int 7] rfl).1 .remove,
    ((assign_edits_as_set holds_ofTemplates hvalue).2.1 [.int 7] rfl).1 .prepend⟩

end Rulebook
