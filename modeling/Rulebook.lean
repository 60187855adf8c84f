import Rulebook.Expander
import Rulebook.Expansion.Visible
import Rulebook.Form.Induction
import Rulebook.Form.Printer
import Rulebook.Form.Shape
import Rulebook.Rule.Description
import Rulebook.Setup
import Rulebook.Proofs.Composition
import Rulebook.Proofs.Relating
import Rulebook.Proofs.Spelling
import Rulebook.Proofs.Lockstep
import Rulebook.Proofs.RoundTrip
import Rulebook.Proofs.Lexing
import Rulebook.Proofs.Restoration
import Rulebook.Proofs.Limits
import Rulebook.Proofs.Outcome
import Rulebook.Proofs.FixedPoint
import Rulebook.Proofs.Confinement
import Rulebook.Proofs.EarlyExit
import Rulebook.Proofs.Grammar
import Rulebook.Proofs.ScopeHiding
import Rulebook.Proofs.ScopeLeaving
import Rulebook.Proofs.Upkeep
import Rulebook.Proofs.Finality
import Rulebook.Proofs.History
import Rulebook.Proofs.Legibility
import Rulebook.Proofs.Postponement
import Rulebook.Proofs.Evaluation
import Rulebook.Proofs.SetEdits
import Rulebook.Proofs.Concatenation
import Rulebook.Proofs.Registration
import Rulebook.Proofs.Renumbering
import Rulebook.Proofs.Shadowing
import Rulebook.Proofs.Sources
import Rulebook.Proofs.Twins
import Rulebook.Proofs.LevelCost
import Rulebook.Proofs.Wrapping
import Rulebook.Proofs.TokenPlaces
import Rulebook.Proofs.FaultPlaces
import Rulebook.Proofs.Watching
import Rulebook.Proofs.Scenes
import Rulebook.Proofs.Setups
import Rulebook.Proofs.Bookkeeping
import Rulebook.Proofs.ScopeStacks
import Rulebook.Proofs.Invocability
import Rulebook.Proofs.ArgumentSupply
import Rulebook.Proofs.InvocationSearch
