import Rulebook.Evaluation.Outcome
import Rulebook.Service.Program
import Rulebook.Service.Settings

/-!
# Operations of a service

Creating, combining, evaluating, showing and deleting rules, each as a program. Reading,
combining and evaluating are counted whether they succeed or fail; how many rules are stored is
noted after each change of the repository. A new rule gets its identifier and its time from
outside.
-/

namespace Rulebook.Service

/-- Counted as a success or a failure. -/
def okOrError {α : Type} : Except Error α → String
  | .ok _ => "ok"
  | .error _ => "error"

/-- How an evaluation is counted. -/
def verdict : Except Error Outcome → String
  | .ok outcome => if outcome.matched then "matched" else "not_matched"
  | .error _ => "error"

/-- Notes how many rules are stored, then ends with a value. -/
def noteCount {α : Type} (value : α) : Program (Except Error α) := do
  Program.orElse (← Program.size) fun count => do
    Program.tell (.stored count)
    return .ok value

/-- Reads a rule and keeps it. -/
def create (s : Settings) (id : String) (now : Timestamp) (rule : String) :
    Program (Except Error Record) := do
  let tree := s.parser.parse rule
  Program.tell (.parsed (okOrError tree))
  Program.orElse tree fun tree => do
    let record : Record := ⟨id, rule, tree, now⟩
    Program.orElse (← Program.keep record) fun _ => noteCount record

/-- Combines rules; nothing is kept. -/
def combine (s : Settings) (rules : List String) : Program (Except Error Tree) := do
  let tree := s.combiner.combine rules
  Program.tell (.combined rules.length (okOrError tree))
  return tree

/-- Evaluates a tree and counts the verdict. -/
def evaluateTree (s : Settings) (tree : Tree) (data : Json) : Program (Except Error Outcome) := do
  let outcome := tree.evaluate s.traced data
  Program.tell (.evaluated (verdict outcome))
  return outcome

/-- The record under an identifier, which must be there. -/
def fetch (id : String) : Program (Except Error Record) := do
  Program.orElse (← Program.find id) fun found => match found with
    | some record => return .ok record
    | none => return .error (.ruleNotFound id)

/-- Evaluates a rule that is kept. -/
def evaluate (s : Settings) (id : String) (data : Json) : Program (Except Error Outcome) := do
  Program.orElse (← fetch id) fun record => evaluateTree s record.tree data

/-- Evaluates a rule that is given as a document. -/
def evaluateDocument (s : Settings) (value data : Json) : Program (Except Error Outcome) :=
  Program.orElse (Tree.load s.maxDepth value) fun tree => evaluateTree s tree data

/-- All rules in the order of the list. -/
def list : Program (Except Error (List Record)) := Program.all

/-- Removes a rule. -/
def delete (id : String) : Program (Except Error Unit) := do
  Program.orElse (← Program.remove id) fun _ => noteCount ()

end Rulebook.Service
