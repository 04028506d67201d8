import Rulebook.Evaluation.Comparing
import Rulebook.Evaluation.Lookup

/-!
# Evaluating rules

Both sides of a join are evaluated before they are joined, the left one first, whatever the truth
of the left one is: an attribute that is missing anywhere is reported. The outcome lists the
conditions that hold and, on request, a line for every node after the lines of its sides.
-/

namespace Rulebook

/-- What evaluating a rule gives. -/
structure Outcome where
  matched : Bool
  /-- the conditions that hold, from left to right -/
  conditions : List String
  /-- a line per node, if asked for -/
  trace : List String
deriving DecidableEq

namespace Tree

/-- A truth value in a trace. -/
def truth (value : Bool) : String := if value then "true" else "false"

/-- The line of a leaf. -/
def leafLine (path : String) (condition : Condition) (matched : Bool) : String :=
  path ++ ": " ++ condition.display ++ " => " ++ (if matched then "MATCHED" else "NOT_MATCHED")

/-- The line of a join. -/
def joinLine (path : String) (c : Connective) (left right matched : Bool) : String :=
  path ++ ": " ++ truth left ++ " " ++ c.word ++ " " ++ truth right ++ " => " ++ truth matched

/-- Evaluates a tree that stands at a path. -/
def evaluateAt (traced : Bool) (record : Json) (path : String) : Tree → Except Error Outcome
  | .leaf condition => do
    let matched ← condition.test (Lookup.field? record condition.field)
    return {
      matched
      conditions := if matched then [condition.display] else []
      trace := if traced then [leafLine path condition matched] else [] }
  | .join c left right => do
    let l ← evaluateAt traced record (path ++ ".left") left
    let r ← evaluateAt traced record (path ++ ".right") right
    let matched := c.apply l.matched r.matched
    return {
      matched
      conditions := l.conditions ++ r.conditions
      trace := if traced then l.trace ++ r.trace ++ [joinLine path c l.matched r.matched matched]
        else [] }

/-- Evaluates a rule on a record, with a trace if asked for. -/
def evaluate (traced : Bool) (record : Json) (tree : Tree) : Except Error Outcome :=
  tree.evaluateAt traced record "root"

end Tree

end Rulebook
