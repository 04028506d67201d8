import Rulebook.Rule.Literal
import Rulebook.Rule.Operator

/-!
# Rule trees

A rule is a tree with conditions at its leaves and connectives at its joins. The measures come
twice. `nodes` and `depth` walk a tree with a stack of subtrees still to visit, so that the walk
needs no more room than the stack; `preorder`, `height`, `conditions` and `joins` follow the
shape of the tree and say what the walks compute.
-/

namespace Rulebook

/-- A leaf of a rule: an attribute compared with a literal. -/
structure Condition where
  field : String
  comparison : Comparison
  literal : Literal
deriving DecidableEq

/-- The condition as a rule writes it. -/
def Condition.display (c : Condition) : String :=
  c.field ++ " " ++ c.comparison.sign ++ " " ++ c.literal.display

/-- Equality of conditions, with numbers compared by position. -/
def Condition.same (c d : Condition) : Bool :=
  c.field == d.field && c.comparison == d.comparison && c.literal.same d.literal

/-- A rule. -/
inductive Tree where
  /-- a condition -/
  | leaf (condition : Condition)
  /-- two rules under a connective -/
  | join (connective : Connective) (left right : Tree)
deriving DecidableEq

namespace Tree

/-! ## By the shape of the tree -/

/-- The number of nodes. -/
def size : Tree → Nat
  | .leaf _ => 1
  | .join _ left right => 1 + left.size + right.size

/-- The number of nodes on the longest way down; one for a leaf. -/
def height : Tree → Nat
  | .leaf _ => 1
  | .join _ left right => 1 + max left.height right.height

/-- The conditions from left to right. -/
def conditions : Tree → List Condition
  | .leaf c => [c]
  | .join _ left right => left.conditions ++ right.conditions

/-- How many joins have the given connective. -/
def joins (connective : Connective) : Tree → Nat
  | .leaf _ => 0
  | .join c left right =>
    (if c = connective then 1 else 0) + left.joins connective + right.joins connective

/-- The subtrees: the tree itself, then those on its left, then those on its right. -/
def preorder : Tree → List Tree
  | .leaf c => [.leaf c]
  | .join c left right => .join c left right :: (left.preorder ++ right.preorder)

/-- The rule as text; every join stands between parentheses. -/
def display : Tree → String
  | .leaf c => c.display
  | .join c left right => "(" ++ left.display ++ " " ++ c.word ++ " " ++ right.display ++ ")"

/-- Equality of rules, with numbers compared by position. -/
def same : Tree → Tree → Bool
  | .leaf c, .leaf d => c.same d
  | .join c l r, .join d m s => c == d && l.same m && r.same s
  | _, _ => false

/-! ## By a stack of subtrees -/

/-- The nodes on a stack of trees. -/
def pending : List Tree → Nat
  | [] => 0
  | tree :: rest => tree.size + pending rest

/-- The nodes below a stack of trees with their levels. -/
def pendingLevels : List (Tree × Nat) → Nat
  | [] => 0
  | (tree, _) :: rest => tree.size + pendingLevels rest

/-- Visits the top of the stack and puts its two sides there, the left one on top. -/
def walk : List Tree → List Tree
  | [] => []
  | .leaf c :: rest => .leaf c :: walk rest
  | .join c left right :: rest => .join c left right :: walk (left :: right :: rest)
termination_by stack => pending stack
decreasing_by all_goals simp only [pending, size]; omega

/-- The nodes of a tree, each before those under it and the left side before the right. -/
def nodes (tree : Tree) : List Tree := walk [tree]

/-- The largest level among the nodes on and below a stack, and the one given. -/
def deepest (best : Nat) : List (Tree × Nat) → Nat
  | [] => best
  | (.leaf _, level) :: rest => deepest (max best level) rest
  | (.join _ left right, level) :: rest =>
    deepest (max best level) ((right, level + 1) :: (left, level + 1) :: rest)
termination_by stack => pendingLevels stack
decreasing_by all_goals simp only [pendingLevels, size]; omega

/-- The depth of a tree; one for a leaf. -/
def depth (tree : Tree) : Nat := deepest 0 [(tree, 1)]

/-- Holds for leaves. -/
def isLeaf : Tree → Bool
  | .leaf _ => true
  | .join .. => false

/-- The number of leaves. -/
def leafCount (tree : Tree) : Nat := (tree.nodes.filter isLeaf).length

/-- The numbers of joins with each connective, those with `and` first. -/
def connectiveCounts (tree : Tree) : Nat × Nat :=
  tree.nodes.foldl
    (fun counts node => match node with
      | .leaf _ => counts
      | .join .and .. => (counts.1 + 1, counts.2)
      | .join .or .. => (counts.1, counts.2 + 1))
    (0, 0)

/-- Puts a name in its place among sorted names; a name that is there stays alone. -/
def insertName (name : String) : List String → List String
  | [] => [name]
  | n :: rest =>
    if name = n then n :: rest
    else if name < n then name :: n :: rest
    else n :: insertName name rest

/-- The attributes of the conditions, sorted and without repetition. -/
def attributes (tree : Tree) : List String :=
  tree.nodes.foldl
    (fun names node => match node with
      | .leaf c => insertName c.field names
      | .join .. => names)
    []

end Tree

end Rulebook
