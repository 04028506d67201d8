import Rulebook.Binary64.Basic

/-!
# Documents

A document is a JSON value. Integers are kept exact; every other number is a binary64 number.
An object is a list of members in the order they were given, so that a document can stand for
what a text says as well as for what it means; `canonical` is the meaning: members sorted by
key, the last of several with one key kept.
-/

namespace Rulebook

/-- A number of a document. -/
inductive Number where
  /-- an integer, exact -/
  | int (n : Int)
  /-- any other number -/
  | real (x : Binary64)
deriving DecidableEq

/-- The number on the binary64 line; an integer becomes the nearest one. -/
def Number.toBinary64 : Number → Binary64
  | .int n => .ofInt n
  | .real x => x

/-- A JSON value. -/
inductive Json where
  | null
  | bool (value : Bool)
  | number (value : Number)
  | text (value : String)
  | list (items : List Json)
  | object (members : List (String × Json))
deriving BEq, Inhabited

namespace Json

/-- The value of the first member with the given key. -/
def member? (key : String) : List (String × Json) → Option Json
  | [] => none
  | (k, v) :: rest => if k = key then some v else member? key rest

/-- The value of a key, if the document is an object that has it. -/
def get? (key : String) : Json → Option Json
  | .object members => member? key members
  | _ => none

/-- Puts a member in its place among sorted members; an earlier one with its key gives way. -/
def insertMember (key : String) (value : Json) : List (String × Json) → List (String × Json)
  | [] => [(key, value)]
  | (k, v) :: rest =>
    if key = k then (key, value) :: rest
    else if key < k then (key, value) :: (k, v) :: rest
    else (k, v) :: insertMember key value rest

/-- The members sorted by key, the last one with each key. -/
def sortMembers (members : List (String × Json)) : List (String × Json) :=
  members.foldl (fun sorted m => insertMember m.1 m.2 sorted) []

mutual

/-- The document with the members of every object sorted by key and without repetition. -/
def canonical : Json → Json
  | .list items => .list (canonicalItems items)
  | .object members => .object (sortMembers (canonicalMembers members))
  | value => value

/-- Makes each item canonical. -/
def canonicalItems : List Json → List Json
  | [] => []
  | item :: items => item.canonical :: canonicalItems items

/-- Makes the value of each member canonical and keeps the order. -/
def canonicalMembers : List (String × Json) → List (String × Json)
  | [] => []
  | (key, value) :: rest => (key, value.canonical) :: canonicalMembers rest

end

mutual

/-- How many lists and objects stand inside each other at the deepest place. -/
def nesting : Json → Nat
  | .list items => 1 + nestingItems items
  | .object members => 1 + nestingMembers members
  | _ => 0

/-- The deepest nesting among items. -/
def nestingItems : List Json → Nat
  | [] => 0
  | item :: items => max item.nesting (nestingItems items)

/-- The deepest nesting among the values of members. -/
def nestingMembers : List (String × Json) → Nat
  | [] => 0
  | (_, value) :: rest => max value.nesting (nestingMembers rest)

end

/-- The document of a number: what is not finite has no number and is written as null. -/
def ofBinary64 (x : Binary64) : Json :=
  if x.isFinite then .number (.real x) else .null

end Json

end Rulebook
