import Rulebook.Rule.Registry

/-!
# The built-in rules

The rules that a configuration can use without declaring any, in the order in
which they are entered: scopes, keys, hooks, variables, loading, conditions,
advice. Rules that touch a key map of the context wait until the feature is
loaded, since the map need not exist before.
-/

namespace Rulebook.Catalogue

/-- A rule that enters a scope. -/
def scope (scope : Scope) (signature documentation : String) : Rule where
  name := scope.ruleName
  action := .enter scope.ruleName scope
  options := {
    indent := some 1
    signature := some signature
    documentation := some documentation
    debugShape := some "&rest sexp" }

/-- A rule that takes `arity` arguments at a time. -/
def repeating (name : String) (builtin : Builtin) (arity : Nat)
    (signature documentation : String) : Rule where
  name
  action := .builtin builtin
  options := {
    arity := some arity
    repetition := .declared
    signature := some signature
    documentation := some documentation }

/-- The rule, made to wait until the context's feature is loaded. -/
def deferring (rule : Rule) : Rule :=
  { rule with options := { rule.options with deferred := true } }

/-- The rule, made to name the target of the setup that it heads. -/
def naming (rule : Rule) : Rule :=
  { rule with options := { rule.options with shorthand := some .first } }

/-- The rules that enter a scope. -/
def scopes : List Rule :=
  [scope .feature "FEATURES BODY..."
     ("Expand BODY once for each of FEATURES, with the feature, and the mode, map and hook " ++
       "it implies, as context."),
   scope .mode "MODES BODY..."
     "Expand BODY once for each of MODES, with the mode and its map and hook as context.",
   scope .map "MAPS BODY..." "Expand BODY once for each of MAPS, with that key map as context.",
   scope .hook "HOOKS BODY..." "Expand BODY once for each of HOOKS, with that hook as context."]

/-- The rules that bind keys. -/
def keys : List Rule :=
  [repeating ":global" .bindGlobally 2 "KEY COMMAND ..." "Globally bind KEY to COMMAND.",
   deferring (repeating ":bind" .bind 2 "KEY COMMAND ..."
     "Bind KEY to COMMAND in the current map."),
   deferring (repeating ":unbind" .unbind 1 "KEY ..." "Unbind KEY in the current map."),
   deferring (repeating ":rebind" .rebind 2 "KEY COMMAND ..."
     "Unbind every key currently bound to COMMAND in the current map, then bind KEY to it.")]

/-- The rules that add hooks. -/
def hooks : List Rule :=
  [repeating ":hook" .addHook 1 "FUNCTION ..." "Add FUNCTION to the current hook.",
   repeating ":hook-into" .hookInto 1 "HOOK ..."
     "Add the current mode to HOOK (a `-hook` suffix is added when missing).",
   repeating ":local-hook" .addLocalHook 2 "HOOK FUNCTION ..."
     "Add FUNCTION to HOOK buffer-locally whenever the current hook runs."]

/-- The rules that set variables. -/
def assignments : List Rule :=
  [repeating ":option" .setOption 2 "NAME VAL ..."
     ("Set the user option NAME to VAL through its custom setter, loading its definition first. " ++
       "NAME may be (append NAME), (prepend NAME) or (remove NAME); membership uses `equal`."),
   repeating ":local-set" .setLocally 2 "NAME VAL ..."
     ("Set the buffer-local value of NAME to VAL whenever the current hook runs. NAME may be " ++
       "(append NAME), (prepend NAME) or (remove NAME).")]

/-- The rules that load packages and features. -/
def loading : List Rule :=
  [naming (repeating ":package" .installPackage 1 "PACKAGE ..."
     ("Install PACKAGE if it is not installed yet, refreshing the archive contents first when " ++
       "the package is unknown.")),
   naming (repeating ":require" .require 1 "FEATURE ..."
     "Load FEATURE now; abandon the rest of the setup when it cannot be loaded."),
   deferring (repeating ":also-load" .alsoLoad 1 "FEATURE ..."
     "Load FEATURE once the current feature has loaded."),
   { name := ":when-loaded"
     action := .builtin .whenLoaded
     options := {
       deferred := true
       indent := some 0
       signature := some "BODY..."
       documentation := some "Evaluate BODY once the current feature has loaded." } },
   { name := ":load-after"
     action := .builtin .loadAfter
     options := {
       indent := some 1
       signature := some "FEATURES BODY..."
       documentation := some "Evaluate BODY once all of FEATURES have loaded." } },
   repeating ":file-match" .matchFile 1 "PATTERN ..."
     "Visit files whose name matches PATTERN in the current mode."]

/-- The rules that leave a setup. -/
def conditions : List Rule :=
  [repeating ":needs" .needExecutable 1 "EXECUTABLE ..."
     "Abandon the setup unless EXECUTABLE is on the search path.",
   repeating ":if-package" .ifPackage 1 "PACKAGE ..."
     "Abandon the setup unless PACKAGE is installed.",
   repeating ":if-feature" .ifFeature 1 "FEATURE ..."
     "Abandon the setup unless FEATURE has been provided.",
   repeating ":if-host" .ifHost 1 "HOSTNAME ..."
     "Abandon the setup unless the system name is HOSTNAME.",
   repeating ":only-if" .onlyIf 1 "CONDITION ..."
     "Abandon the setup unless CONDITION evaluates to non-nil.",
   { name := ":quit"
     action := .builtin .quit
     options := {
       signature := some "&optional RETURN"
       documentation := some "Unconditionally abandon the setup, returning RETURN." } }]

/-- The rule that advises functions. -/
def advice : List Rule :=
  [repeating ":advise" .advise 3 "SYMBOL HOW FUNCTION ..."
     "Add FUNCTION as HOW advice (e.g. :around, :before) to SYMBOL."]

/-- All built-in rules, in the order in which they are entered. -/
def rules : List Rule :=
  scopes ++ keys ++ hooks ++ assignments ++ loading ++ conditions ++ advice

/-- The action of a built-in rule, without what is declared about it. -/
def action? (name : String) : Option Action :=
  (rules.find? (·.name == name)).map (·.action)

/-- The registry of the built-in rules. -/
def registry : Registry := (Registry.empty.install rules).2

end Rulebook.Catalogue
