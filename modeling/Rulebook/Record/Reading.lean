import Rulebook.Record.Basic
import Rulebook.Rule.Reading

/-!
# Reading records from text

A record that was written is read again as a structure of four fields. Its tree stands one level
below it, so that it may be one level less deep than a tree that stands alone.
-/

namespace Rulebook.Record

/-- The form of a record. A time that is not there stays as it is. -/
def form : Form Draft where
  name := "struct RuleRecord"
  fields :=
    [⟨"id", fun s d => do return { d with id := some (← s.single Json.asText) }, true⟩,
     ⟨"rule_string", fun s d => do return { d with rule := some (← s.single Json.asText) }, true⟩,
     ⟨"ast", fun s d => do
       return { d with tree := some (← Tree.ofSource (Source.nestingLimit - 1) s) }, true⟩,
     ⟨"created_at", fun s d => do
       return { d with createdAt := ← s.single Timestamp.ofJson }, false⟩]

/-- The record that has been read, if all its parts are there. -/
def Draft.finish (d : Draft) : Except Fault Record :=
  match d.id, d.rule, d.tree with
  | some id, some rule, some tree => .ok ⟨id, rule, tree, d.createdAt⟩
  | none, _, _ => .error (.missingField "id")
  | _, none, _ => .error (.missingField "rule_string")
  | _, _, none => .error (.missingField "ast")

/-- Reads a text as a record. Without a time of its own it was made now. -/
def read (now : Timestamp) (text : String) : Except Unreadable Record := do
  Except.orFault (← form.read ⟨none, none, none, now⟩ text).finish

end Rulebook.Record
