import Rulebook.Rule.Tree

/-!
# Rules as documents

A tree is kept as an object per node. The member `type` says whether the node is an operand, that
is a condition, or an operator, that is a join; the other members hold its parts. Written text
keeps the order given here; as a document value the members are sorted.
-/

namespace Rulebook.Tree

/-- The document of a tree, members in the order in which they are written. -/
def document : Tree → Json
  | .leaf c => .object
    [("type", .text "operand"), ("attribute", .text c.field),
     ("operator", .text c.comparison.sign), ("value", c.literal.toJson)]
  | .join c left right => .object
    [("type", .text "operator"), ("operator", .text c.word),
     ("left", left.document), ("right", right.document)]

/-- The written text of a tree. -/
def serialize (tree : Tree) : String := tree.document.print

/-- The document value of a tree: members sorted by key. -/
def toJson (tree : Tree) : Json := tree.document.canonical

end Rulebook.Tree
