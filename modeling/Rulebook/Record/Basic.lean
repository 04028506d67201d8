import Rulebook.Json.Layout
import Rulebook.Record.Timestamp
import Rulebook.Rule.Loading

/-!
# Records

A record keeps a rule under an identifier: its text, the tree that was read from it, and when that
was done. As a document it has a member for each. A tree inside a record has no depth limit of its
own, and an operator that is not known is a fault of the record.
-/

namespace Rulebook

/-- A rule that is kept. -/
structure Record where
  id : String
  rule : String
  tree : Tree
  createdAt : Timestamp
deriving DecidableEq

namespace Record

/-- The document of a record, members in the order in which they are written. -/
def document (r : Record) : Json := .object
  [("id", .text r.id), ("rule_string", .text r.rule), ("ast", r.tree.document),
   ("created_at", .text r.createdAt.print)]

/-- The written text of a record. -/
def serialize (r : Record) : String := r.document.print

/-- A tree inside a record. -/
def treeOfJson (value : Json) : Except Fault Tree := do
  let raw ← RawTree.load false value
  match raw.resolve with
  | .ok tree => return tree
  | .error e => .error (.refused e.message)

/-- A record that is being read. -/
structure Draft where
  id : Option String
  rule : Option String
  tree : Option Tree
  createdAt : Timestamp

/-- The parts of a record. -/
def layout : Layout Draft where
  name := "struct RuleRecord"
  parts :=
    [⟨"id", true, fun value d => do return { d with id := some (← value.asText) }⟩,
     ⟨"rule_string", true, fun value d => do return { d with rule := some (← value.asText) }⟩,
     ⟨"ast", true, fun value d => do return { d with tree := some (← treeOfJson value) }⟩,
     ⟨"created_at", false, fun value d => do
       return { d with createdAt := ← Timestamp.ofJson value }⟩]

/-- The record that a document is. Without a time of its own it was made now. -/
def ofJson (now : Timestamp) (value : Json) : Except Fault Record := do
  let d ← layout.read ⟨none, none, none, now⟩ value
  match d.id, d.rule, d.tree with
  | some id, some rule, some tree => return ⟨id, rule, tree, d.createdAt⟩
  | none, _, _ => .error (.missingField "id")
  | _, none, _ => .error (.missingField "rule_string")
  | _, _, none => .error (.missingField "ast")

end Record

end Rulebook
