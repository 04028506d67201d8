import Rulebook.Json.Form
import Rulebook.Rule.Loading

/-!
# Reading rules and literals from text

A text is read up to the first thing that cannot be used, and that may be a mistake in the text or
a value that does not fit. At the top of a tree the type is used where it stands, so a type that
does not fit is found before a mistake behind it; the other parts are looked at only when the
whole node has been read. What follows the value is looked at last.
-/

namespace Rulebook

/-- Reads a text as a literal. -/
def Literal.read (text : String) : Except Unreadable Literal := do
  let (source, rest) := Source.ofSymbols (Text.symbols text)
  let value ← Except.orFailure (source.content Source.nestingLimit)
  let literal ← Except.orFault (Literal.ofJson value)
  Except.orFailure (Source.trailing rest)
  return literal

namespace RawTree

/-- The type of a node and its other members, in the order of the text. -/
def readMembers (found : Option Tag) (limit : Nat) :
    List (Except Failure String × Source) → Except Unreadable (Option Tag × List (String × Json))
  | [] => .ok (found, [])
  | (key, value) :: rest => do
    let key ← Except.orFailure key
    if key = "type" then
      match found with
      | some _ => .error (.fault (.duplicateField "type"))
      | none => readMembers (some (← value.single (Tag.ofJson false))) limit rest
    else
      let value ← Except.orFailure (value.content limit)
      let (tag, members) ← readMembers found limit rest
      return (tag, (key, value) :: members)

/-- The shape of the node that a source holds. The first argument says how many lists and objects
may stand inside each other there. -/
def ofSource : Nat → Source → Except Unreadable RawTree
  | 0, .object .. => .error (.failure .malformed)
  | 0, .list .. => .error (.failure .malformed)
  | limit + 1, .object members stop => do
    let (tag, members) ← readMembers none limit members
    Except.orFailure (Source.closed stop ())
    match tag with
    | none => .error (.fault (.missingField "type"))
    | some .operand => Except.orFault (operandMembers none none none members)
    | some .operator => Except.orFault (operatorMembers none none none members)
  | _ + 1, .list [] stop => do
    Except.orFailure (Source.closed stop ())
    .error (.fault (.missingField "type"))
  | limit + 1, .list (tag :: items) stop => do
    let tag ← tag.single (Tag.ofJson false)
    let items ← Except.orFailure (Source.contentItems limit items)
    Except.orFailure (Source.closed stop ())
    match tag with
    | .operand => Except.orFault (operandItems items)
    | .operator => Except.orFault (operatorItems items)
  | _, source => source.single (load false)

end RawTree

/-- The tree that a source holds. An operator that is not known is a fault of the document here. -/
def Tree.ofSource (limit : Nat) (source : Source) : Except Unreadable Tree := do
  match (← RawTree.ofSource limit source).resolve with
  | .ok tree => return tree
  | .error e => .error (.fault (.refused e.message))

/-- Reads a text as a rule. -/
def Tree.read (text : String) : Except Unreadable Tree := do
  let (source, rest) := Source.ofSymbols (Text.symbols text)
  let tree ← Tree.ofSource Source.nestingLimit source
  Except.orFailure (Source.trailing rest)
  return tree

end Rulebook
