import Rulebook.Json.Fault

/-!
# Reading structures from documents

A structure is written as an object with a member for each part, or as a list of the parts in
order. A layout names the parts, says which of them must be there and how each is put into the
structure; a part that may be missing keeps the value it has in the structure to start with.
Members that the layout does not name are ignored. Members are read in the order of the document,
so the first fault in that order is the one reported, and parts that are missing come last.
-/

namespace Rulebook

/-- One part of a structure. -/
structure Part (α : Type) where
  name : String
  /-- whether the part must be there -/
  required : Bool
  /-- reads the part and puts it into the structure -/
  set : Json → α → Except Fault α

/-- The parts of a structure, in order. -/
structure Layout (α : Type) where
  /-- the name of the structure in messages -/
  name : String
  parts : List (Part α)

namespace Layout

variable {α : Type}

/-- What a list for the structure should hold. -/
def expectation (layout : Layout α) : String :=
  layout.name ++ " with " ++ String.ofList (Decimal.toDigits layout.parts.length) ++
    (if layout.parts.length = 1 then " element" else " elements")

/-- The part with a name. -/
def part? (layout : Layout α) (name : String) : Option (Part α) :=
  layout.parts.find? (·.name == name)

/-- Puts members into a structure, in the order of the document. -/
def setMembers (layout : Layout α) (value : α) : List (String × Json) → Except Fault α
  | [] => .ok value
  | (key, found) :: rest =>
    match layout.part? key with
    | some part => do layout.setMembers (← part.set found value) rest
    | none => layout.setMembers value rest

/-- The first part that must be there and is not among the members. -/
def missing? (layout : Layout α) (members : List (String × Json)) : Option (Part α) :=
  layout.parts.find? fun part => part.required && (Json.member? part.name members).isNone

/-- Puts the items of a list into the parts in order; `index` items have been used. -/
def setItems (layout : Layout α) (index : Nat) (value : α) :
    List (Part α) → List Json → Except Fault α
  | [], [] => .ok value
  | [], extra => .error (.wrongLength (index + extra.length) "fewer elements in array")
  | part :: parts, [] =>
    if part.required then .error (.wrongLength index layout.expectation)
    else layout.setItems index value parts []
  | part :: parts, item :: items => do
    layout.setItems (index + 1) (← part.set item value) parts items

/-- Reads a structure; parts that are not there stay as they are in `start`. -/
def read (layout : Layout α) (start : α) : Json → Except Fault α
  | .object members => do
    let value ← layout.setMembers start members
    match layout.missing? members with
    | some part => .error (.missingField part.name)
    | none => return value
  | .list items => layout.setItems 0 start layout.parts items
  | found => .error (.wrongType found layout.name)

end Layout

end Rulebook
