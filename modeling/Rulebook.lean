import Rulebook.Config.Layers
import Rulebook.Config.LogFilter
import Rulebook.Config.Telemetry
import Rulebook.Http.Router
import Rulebook.Metrics.Page
import Rulebook.Proofs.Agreement
import Rulebook.Proofs.DepthLimit
import Rulebook.Proofs.Grammar
import Rulebook.Proofs.CombinedMeaning
import Rulebook.Proofs.Exactness
import Rulebook.Proofs.FirstConnective
import Rulebook.Proofs.Positional
import Rulebook.Proofs.Tokens
import Rulebook.Proofs.Display
import Rulebook.Proofs.FailedWrites
import Rulebook.Proofs.Interleaving
import Rulebook.Proofs.Tables
import Rulebook.Proofs.Reloading
import Rulebook.Proofs.Modes
import Rulebook.Proofs.Kinds
import Rulebook.Proofs.Serving
import Rulebook.Proofs.Accounting
import Rulebook.Proofs.Folding
import Rulebook.Proofs.OpenParentheses
import Rulebook.Proofs.Dependence
import Rulebook.Proofs.Traces
import Rulebook.Proofs.LoadFailures
import Rulebook.Proofs.Paths
import Rulebook.Proofs.Unbalanced
import Rulebook.Proofs.Integers
import Rulebook.Proofs.Limits
import Rulebook.Proofs.Monotony
import Rulebook.Proofs.Trichotomy
import Rulebook.Proofs.LastLayer
import Rulebook.Proofs.Walks
import Rulebook.Proofs.Characters
import Rulebook.Proofs.Quotes
