import Rulebook.Rule.Registry

/-!
# Descriptions

One line for a rule, its options, an entry or a registry, for a person who
debugs a configuration. Actions are not shown, and of optional things it is
shown whether they are there.
-/

namespace Rulebook.Description

/-- A record: its name and its fields between braces. -/
def record (name : String) (fields : List (String × String)) : String :=
  let shown := fields.map fun (label, value) => label ++ ": " ++ value
  name ++ " \x7b " ++ ", ".intercalate shown ++ " \x7d"

/-- A thing that may be absent. -/
def optional {α : Type} (shown : α → String) : Option α → String
  | some value => "Some(" ++ shown value ++ ")"
  | none => "None"

/-- What stands for an action. -/
def hidden : String := Text.quoted "<function>"

/-- How a rule repeats. -/
def repetition : Repetition → String
  | .never => "No"
  | .declared => "Yes"
  | .every size => s!"Arity({size})"

/-- One line about a rule's options. -/
def options (options : RuleOptions) : String :=
  record "RuleOptions"
    [("arity", optional toString options.arity),
     ("indent", optional toString options.indent),
     ("after_loaded", toString options.deferred),
     ("repeatable", repetition options.repetition),
     ("signature", optional Text.quoted options.signature),
     ("shorthand", optional (fun _ => hidden) options.shorthand)]

/-- One line about a rule. -/
def rule (rule : Rule) : String :=
  record "Rule" [("name", Text.quoted rule.name), ("expand", hidden)]

/-- The traits of an entry, as names with the bits that stand for them. -/
def traits (entry : Entry) : List (String × Nat) :=
  (if entry.deferred then [("AFTER_LOADED", 1)] else []) ++
    (if entry.repeats then [("REPEATABLE", 2)] else []) ++
    (if entry.shorthand.isSome then [("SHORTHAND", 4)] else [])

/-- The traits of an entry as one number. -/
def traitBits (entry : Entry) : Nat := (traits entry).foldl (fun bits trait => bits + trait.2) 0

/-- The traits of an entry by name. -/
def traitNames (entry : Entry) : String :=
  match traits entry with
  | [] => "RuleFlags(0x0)"
  | traits => "RuleFlags(" ++ " | ".intercalate (traits.map Prod.fst) ++ ")"

/-- One line about an entry. -/
def entry (entry : Entry) : String :=
  record "RuleDefinition"
    [("id", Text.quoted entry.id), ("expand", hidden),
     ("arity", optional toString entry.arity), ("flags", traitNames entry)]

/-- One line about a registry. -/
def registry (registry : Registry) : String :=
  record "RuleRegistry"
    [("rules", "[" ++ ", ".intercalate (registry.ids.map Text.quoted) ++ "]")]

end Rulebook.Description
