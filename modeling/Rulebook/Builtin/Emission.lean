import Rulebook.Assignment
import Rulebook.Expansion.Means
import Rulebook.HostCode

/-!
# The code of the built-in rules

Each built-in rule produces calls of the host's own operations: it binds keys,
adds hooks, sets options, loads packages and features, advises functions. None
of them expands anything itself. What a rule needs of the context it asks for
before it looks at its arguments, so a missing context is the fault that
shows.
-/

namespace Rulebook.Builtin

open HostCode Means

/-- User options, read and written by the functions that their definitions
name. An option's definition is loaded before it is set. -/
def optionPlace : Place where
  read name := .call "funcall" [customFunction name "custom-get" "symbol-value", quoted name]
  write name value := .sequence
    [.call "custom-load-symbol" [quoted name],
     .call "funcall" [customFunction name "custom-set" "set-default", quoted name, value]]

/-- Buffer-local variables. -/
def localPlace : Place where
  read name := name
  write name value := .call "setq-local" [name, value]

variable {m : Type → Type} [Monad m] [MonadExceptOf Fault m]

/-- Leaves the setup unless `condition` holds. -/
def unlessExit (means : Means m) (condition : Form) : m Form := do
  return .call "unless" [condition, ← means.exit Form.nil]

/-- The code that a built-in rule produces. -/
def emit (means : Means m) (args : List Form) : Builtin → m Form
  | .bindGlobally => do
    return .call "global-set-key"
      [keyCode (← argument args 0), functionOf (← argument args 1)]
  | .bind => do
    let map ← means.deduce .map
    return defineKey map (keyCode (← argument args 0)) (functionOf (← argument args 1))
  | .unbind => do
    let map ← means.deduce .map
    return defineKey map (keyCode (← argument args 0)) Form.nil
  | .rebind => do
    let map ← means.deduce .map
    let command ← argument args 1
    return HostCode.rebind map (keyCode (← argument args 0)) (functionOf command)
  | .addHook => do
    let hook ← means.deduce .hook
    return HostCode.addHook hook (functionOf (← argument args 0))
  | .hookInto => do
    let mode ← means.deduce .mode
    let hook ← settled (hookOf ":hook-into" (← argument args 0))
    return HostCode.addHook hook (functionOf mode)
  | .addLocalHook => do
    let hook ← means.deduce .hook
    let inner := .call "add-hook"
      [quoted (← argument args 0), functionOf (← argument args 1), Form.nil, Form.t]
    return HostCode.addHook hook (thunk inner)
  | .setOption => do
    settled (optionPlace.assign (← argument args 0) (← argument args 1))
  | .setLocally => do
    let hook ← means.deduce .hook
    let assignment ←
      settled (localPlace.assign (← argument args 0) (← argument args 1))
    return HostCode.addHook hook (thunk assignment)
  | .installPackage => do
    return HostCode.installPackage (quoted (← argument args 0))
  | .require => do
    let exit ← means.exit Form.nil
    return .call "unless"
      [.call "require" [quoted (← argument args 0), Form.nil, Form.t], exit]
  | .alsoLoad => do return .call "require" [quoted (← argument args 0)]
  | .whenLoaded => pure (.sequence args)
  | .loadAfter =>
    match args with
    | [] => throw (.argumentCount ":load-after" 1 0)
    | features :: body => pure (.sequence (afterAll features.elements body))
  | .matchFile => do
    let mode ← means.deduce .mode
    return .call "add-to-list"
      [.quote (.symbol "auto-mode-alist"), .call "cons" [← argument args 0, quoted mode]]
  | .needExecutable => do
    unlessExit means (.call "executable-find" [← argument args 0])
  | .ifPackage => do
    unlessExit means (.call "package-installed-p" [quoted (← argument args 0)])
  | .ifFeature => do
    unlessExit means (.call "featurep" [quoted (← argument args 0)])
  | .ifHost => do
    unlessExit means (.call "string=" [.call "system-name" [], ← argument args 0])
  | .onlyIf => do unlessExit means (← argument args 0)
  | .quit =>
    match args with
    | [] => means.exit Form.nil
    | [value] => means.exit value
    | args => throw (.argumentCount ":quit" 1 args.length)
  | .advise => do
    return .call "advice-add"
      [quoted (← argument args 0), ← argument args 1,
       functionOf (← argument args 2)]

end Rulebook.Builtin
