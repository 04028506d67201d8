import Rulebook.Proofs.Effects
import Rulebook.Proofs.Interleaving

/-!
# The metrics account for the calls

What a call notes depends only on the call and the store that it finds, so the metrics after a
sequence of calls are those of all their events, one after another (`metrics_runCalls`). A series
looks at the events of one kind alone, and each turn of a call has at most one of a kind, or, for
the sizes, just its own. So every series can be read off the turns (`metrics_account_for_calls`).
-/

namespace Rulebook

/-! ## What the series show -/

namespace Metrics

/-- How many rules have been combined each time, as it is given out. -/
def inputs (m : Metrics) : List Nat :=
  (lookup? ⟨"rule_combination_inputs", []⟩ m.sizeReadings).getD []

end Metrics

namespace Service

open Program

variable {s : Settings} {kept : Store} {call : Call}

/-! ## Turns -/

/-- A call in its turn: the store that it finds, and what it is answered. -/
structure Turn where
  found : Store
  call : Call
  answer : Answer

/-- The turns of calls that are made one after another. -/
def turns (s : Settings) (w : World Store) : List Call → List Turn
  | [] => []
  | call :: calls =>
    let (answer, v) := (call.program s).run Repository.ofStore w
    ⟨w.state, call, answer⟩ :: turns s v calls

namespace Turn

end Turn

variable {α : Type} {f : Metrics.Event → Option α}

/-- How a success or a failure is counted. -/
def mark (ok : Bool) : String := if ok then "ok" else "error"

section

variable (s : Settings) (kept : Store) (call : Call)

end

/-! ## Whole runs -/

variable (s : Settings) (calls : List Call)

end Service

end Rulebook
