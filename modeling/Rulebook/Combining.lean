import Rulebook.Parsing.Parser

/-!
# Combining rules

Rules are combined into one tree that leans to the right: the first rule joined with the
combination of the others. One connective serves the whole combination; which one, the strategy
says from the rules taken together.
-/

namespace Rulebook

/-- How the connective of a combination is chosen. -/
inductive Strategy where
  /-- always `AND` -/
  | fixedAnd
  /-- the one that the rules use more often, `AND` if neither is -/
  | mostFrequent
deriving DecidableEq

namespace Strategy

/-- The name of a strategy in settings. -/
def name : Strategy → String
  | .fixedAnd => "fixed_and"
  | .mostFrequent => "most_frequent"

/-- The strategy that a setting names. -/
def ofName (name : String) : Except Error Strategy :=
  if name = "fixed_and" then .ok .fixedAnd
  else if name = "most_frequent" then .ok .mostFrequent
  else .error (.invalidInput ("未知的组合策略: " ++ name))

/-- The connective for a list of rules. -/
def connective (strategy : Strategy) (trees : List Tree) : Connective :=
  match strategy with
  | .fixedAnd => .and
  | .mostFrequent =>
    let counts := trees.foldl
      (fun counts tree =>
        let own := tree.connectiveCounts
        (counts.1 + own.1, counts.2 + own.2))
      (0, 0)
    if counts.1 < counts.2 then .or else .and

end Strategy

/-- A way of combining rules: how they are read and how they are joined. -/
structure Combiner where
  parser : Parser := {}
  strategy : Strategy := .fixedAnd
deriving DecidableEq

namespace Combiner

/-- The failure of combining no rules. -/
def noRules : Error := .invalidInput "至少需要一条规则"

/-- The depth of the combination of trees: the tree with index `i` stands below `i + 1` joins, and
the last one below as many as the last but one. -/
def combinedDepth (trees : List Tree) : Nat :=
  let last := trees.length - 1
  (trees.zipIdx.map fun (tree, i) => min (i + 1) last + tree.depth).foldl max 0

/-- Joins trees from the right under one connective. -/
def joinAll? (c : Connective) (trees : List Tree) : Option Tree :=
  match trees.reverse with
  | [] => none
  | last :: before => some (before.foldl (fun tree next => .join c next tree) last)

/-- Combines trees. -/
def combineTrees (combiner : Combiner) (trees : List Tree) : Except Error Tree := do
  combiner.parser.checkDepth (combinedDepth trees)
  match joinAll? (combiner.strategy.connective trees) trees with
  | some tree => return tree
  | none => .error noRules

/-- Reads and combines rules. More rules than the limit allows levels are refused unread. -/
def combine (combiner : Combiner) (rules : List String) : Except Error Tree :=
  if rules.isEmpty then .error noRules
  else do
    combiner.parser.checkDepth rules.length
    combiner.combineTrees (← rules.mapM combiner.parser.parse)

end Combiner

end Rulebook
