import Rulebook.Fault
import Rulebook.Text.Suffix

/-!
# Host code

The pieces of host code that rules put together. Arguments of rules are taken
generously: a name may be quoted or not where a quoted one is needed, a command
may be given with or without the function mark, and a key may be described by
a string.
-/

namespace Rulebook.HostCode

/-- `'form`, with no second quote. -/
def quoted : Form → Form
  | .quote inner => .quote inner
  | form => .quote form

/-- A key: a string describes one to `kbd`, anything else is taken as it is. -/
def keyCode : Form → Form
  | .text key => .call "kbd" [.text key]
  | form => form

/-- A function: a symbol, quoted or not, gets the function mark. The symbol
`nil` and every other expression are taken as they are. -/
def functionOf : Form → Form
  | .symbol name => if name = "nil" then .symbol name else .function (.symbol name)
  | .quote (.symbol name) => .function (.symbol name)
  | form => form

/-- The hook that a name means: `-hook` is added unless the name already tells
a hook. -/
def hookOf (rule : String) : Form → Except Fault Form
  | .symbol name =>
    if Text.endsIn name "-functions" then .ok (.symbol name)
    else .ok (.symbol (Text.withEnding name "-hook"))
  | form => .error (Fault.expectedSymbol rule form)

/-- `(lambda () body)` -/
def thunk (body : Form) : Form := .call "lambda" [.list [], body]

/-- `(with-eval-after-load feature body...)` -/
def afterLoad (feature : Form) (body : List Form) : Form :=
  .call "with-eval-after-load" (feature :: body)

/-- A body that waits for each of several features, the first outermost. -/
def afterAll (features body : List Form) : List Form :=
  features.foldr (fun feature inner => [afterLoad (quoted feature) inner]) body

/-- `(throw 'token value)` -/
def throwTo (token value : Form) : Form := .call "throw" [.quote token, value]

/-- `(catch 'token body...)` -/
def catchFor (token : Form) (body : List Form) : Form := .call "catch" (.quote token :: body)

/-- `(define-key map key command)` -/
def defineKey (map key command : Form) : Form := .call "define-key" [map, key, command]

/-- Unbinds every key of a command in a map, then binds the key given. -/
def rebind (map key command : Form) : Form :=
  .sequence
    [.call "dolist"
       [.list [.symbol "key", .call "where-is-internal" [command, map]],
        defineKey map (.symbol "key") Form.nil],
     defineKey map key command]

/-- `(add-hook 'hook function)` -/
def addHook (hook function : Form) : Form := .call "add-hook" [quoted hook, function]

/-- Installs a package unless it is there, and asks the archives first if they
do not know it. -/
def installPackage (package : Form) : Form :=
  .call "unless"
    [.call "package-installed-p" [package],
     .call "unless"
       [.call "assq" [package, .symbol "package-archive-contents"],
        .call "package-refresh-contents" []],
     .call "package-install" [package]]

/-- The function that an option's definition names under a property, or else
`fallback`. -/
def customFunction (name : Form) (property fallback : String) : Form :=
  .call "or"
    [.call "get" [quoted name, .quote (.symbol property)], .function (.symbol fallback)]

end Rulebook.HostCode
