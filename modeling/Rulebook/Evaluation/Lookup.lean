import Rulebook.Json.Basic
import Rulebook.Binary64.Decimal
import Rulebook.Text.Blank

/-!
# Looking up an attribute

An attribute names a member of the record. If the record has no member of exactly that name, the
name is a path: its segments between dots lead from the record downwards, through objects by key
and through lists by index.
-/

namespace Rulebook.Lookup

/-- The largest index that a segment can write, and one more. -/
def indexBound : Nat := Nat.pow 2 64

/-- The index that a segment writes: digits, after a plus sign if there is one. -/
def index? (segment : String) : Option Nat :=
  let digits := match segment.toList with
    | '+' :: ds => ds
    | ds => ds
  if digits.isEmpty || !digits.all Decimal.isDigit then none
  else
    let n := Decimal.ofDigits digits
    if n < indexBound then some n else none

/-- One step down. -/
def step? (segment : String) : Json → Option Json
  | .object members => Json.member? segment members
  | .list items => do items[← index? segment]?
  | _ => none

/-- Steps down along segments. -/
def walk? : List String → Json → Option Json
  | [], value => some value
  | segment :: rest, value => do walk? rest (← step? segment value)

/-- The value of an attribute in a record. -/
def field? (record : Json) (field : String) : Option Json :=
  match record.get? field with
  | some value => some value
  | none => walk? (Text.segments field) record

end Rulebook.Lookup
