import Rulebook.Expansion.Means

/-!
# Templates

A template is a form in which some symbols are slots. Filling goes through the
form depth first and from left to right, inside quotes and vectors too, and
what is put into a slot is not looked at again. A slot may ask the context and
so fail, and the early-exit slot makes the run guarded.

All arguments together, `$*`, are spliced where they stand among the items of a
list or a vector, and are one list anywhere else.
-/

namespace Rulebook

/-- What a slot of a template is filled with. -/
inductive Slot where
  /-- The argument at a position, or `nil`. -/
  | argument (index : Nat)
  /-- All arguments. -/
  | arguments
  /-- What the context binds to a key. -/
  | key (key : Key)
  /-- An early exit that returns `nil`. -/
  | exit
  /-- The number of rules known. -/
  | ruleCount
deriving Repr, DecidableEq, Inhabited

/-- The slot that a symbol stands for. -/
def Slot.ofName? : String → Option Slot
  | "$1" => some (.argument 0)
  | "$2" => some (.argument 1)
  | "$3" => some (.argument 2)
  | "$*" => some .arguments
  | "$feature" => some (.key .feature)
  | "$mode" => some (.key .mode)
  | "$map" => some (.key .map)
  | "$hook" => some (.key .hook)
  | "$quit" => some (.key .quit)
  | "$throw" => some .exit
  | "$count" => some .ruleCount
  | _ => none

namespace Template

variable {m : Type → Type} [Monad m]

/-- The form that a symbol becomes. -/
def fillSymbol (means : Means m) (args : List Form) (name : String) : m Form :=
  match Slot.ofName? name with
  | some (.argument index) => pure (args[index]?.getD Form.nil)
  | some .arguments => pure (.list args)
  | some (.key key) => means.deduce key
  | some .exit => means.exit Form.nil
  | some .ruleCount => pure (.int (Int64.ofNat means.registry.size))
  | none => pure (.symbol name)

mutual

/-- The template with its slots filled. -/
def fill (means : Means m) (args : List Form) : Form → m Form
  | .symbol name => fillSymbol means args name
  | .text content => pure (.text content)
  | .int value => pure (.int value)
  | .quote inner => do return .quote (← fill means args inner)
  | .function inner => do return .function (← fill means args inner)
  | .list items => do return .list (← fillItems means args items)
  | .vector items => do return .vector (← fillItems means args items)

/-- The items of a list or a vector with their slots filled and all arguments
spliced. -/
def fillItems (means : Means m) (args : List Form) : List Form → m (List Form)
  | [] => pure []
  | item :: items =>
    if item.symbol?.bind Slot.ofName? = some .arguments then do
      return args ++ (← fillItems means args items)
    else do
      let filled ← fill means args item
      return filled :: (← fillItems means args items)

end

end Template

end Rulebook
