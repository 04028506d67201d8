import Rulebook.Json.Fault
import Rulebook.Json.Source

/-!
# Reading structures from text

A form names the fields of a structure and says how each is read where it stands in the text. A
structure is read in the order of the text, and the first thing that cannot be used decides why it
is not read, be it a mistake in the text or a value of the wrong kind. It stands as an object,
whose members may come in any order but none of them twice, or as a list of the fields in order.
Members that nobody asks for are skipped. What follows the structure is looked at last.
-/

namespace Rulebook

/-- Why a text does not give a value. -/
inductive Unreadable where
  /-- the text is not a document -/
  | failure (failure : Failure)
  /-- the document is not a value of the kind asked for -/
  | fault (fault : Fault)

/-- A failure of the text as a reason. -/
def Except.orFailure {α : Type} : Except Failure α → Except Unreadable α
  | .ok value => .ok value
  | .error f => .error (.failure f)

/-- A fault of the document as a reason. -/
def Except.orFault {α : Type} : Except Fault α → Except Unreadable α
  | .ok value => .ok value
  | .error f => .error (.fault f)

namespace Source

/-- What a reader of single values sees of a value: a list or an object is known by its bracket,
and anything else is read. -/
def scalar : Source → Except Failure Json
  | .list .. => .ok (.list [])
  | .object .. => .ok (.object [])
  | source => source.content nestingLimit

/-- Reads a single value of a kind. -/
def single {α : Type} (read : Json → Except Fault α) (source : Source) : Except Unreadable α := do
  Except.orFault (read (← Except.orFailure source.scalar))

/-- Reads texts one after another. -/
def readEach : List Source → Except Unreadable (List String)
  | [] => .ok []
  | item :: items => do
    let text ← item.single Json.asText
    return text :: (← readEach items)

/-- Reads a list of texts. -/
def readTexts : Source → Except Unreadable (List String)
  | .list items stop => do
    let texts ← readEach items
    Except.orFailure (closed stop texts)
  | source => do
    let value ← Except.orFailure source.scalar
    .error (.fault (.wrongType value "a sequence"))

/-- Reads a value of any kind inside a structure. -/
def readAny (source : Source) : Except Unreadable Json := do
  return (← Except.orFailure (source.content (nestingLimit - 1))).canonical

end Source

/-- A field of a structure and how it is read where it stands. -/
structure Field (α : Type) where
  name : String
  set : Source → α → Except Unreadable α
  /-- whether the field must be there -/
  required : Bool := true

/-- The name of a structure in messages and its fields in order. -/
structure Form (α : Type) where
  name : String
  fields : List (Field α)

namespace Form

variable {α : Type}

/-- What a list for the structure should hold. -/
def expectation (form : Form α) : String :=
  form.name ++ " with " ++ String.ofList (Decimal.toDigits form.fields.length) ++
    (if form.fields.length = 1 then " element" else " elements")

/-- Reads members in the order of the text and notes the names of the fields that were there.
Other members are skipped. -/
def readMembers (fields : List (Field α)) (seen : List String) (value : α) :
    List (Except Failure String × Source) → Except Unreadable (List String × α)
  | [] => .ok (seen, value)
  | (key, source) :: rest => do
    let key ← Except.orFailure key
    match fields.find? (·.name == key) with
    | some field =>
      if seen.contains key then .error (.fault (.duplicateField key))
      else readMembers fields (key :: seen) (← field.set source value) rest
    | none =>
      match source.skip with
      | some f => .error (.failure f)
      | none => readMembers fields seen value rest

/-- Reads items into fields in order. Items after the last field are a mistake in the text. -/
def readItems (expected : String) (stop : Option Failure) (index : Nat) (value : α) :
    List (Field α) → List Source → Except Unreadable α
  | [], [] => Except.orFailure (Source.closed stop value)
  | [], _ :: _ => .error (.failure .malformed)
  | field :: fields, [] =>
    match stop with
    | some f => .error (.failure f)
    | none =>
      if field.required then .error (.fault (.wrongLength index expected))
      else readItems expected stop index value fields []
  | field :: fields, item :: items => do
    readItems expected stop (index + 1) (← field.set item value) fields items

/-- Reads a structure; fields that are not there stay as they are in `start`. -/
def ofSource (form : Form α) (start : α) : Source → Except Unreadable α
  | .object members stop => do
    let (seen, value) ← readMembers form.fields [] start members
    Except.orFailure (Source.closed stop ())
    match form.fields.find? fun field => field.required && !seen.contains field.name with
    | some field => .error (.fault (.missingField field.name))
    | none => return value
  | .list items stop => readItems form.expectation stop 0 start form.fields items
  | source => do
    let value ← Except.orFailure source.scalar
    .error (.fault (.wrongType value form.name))

/-- Reads symbols as a structure, and nothing after it. -/
def readSymbols (form : Form α) (start : α) (ss : List Text.Symbol) : Except Unreadable α := do
  let (source, rest) := Source.ofSymbols ss
  let value ← form.ofSource start source
  Except.orFailure (Source.trailing rest)
  return value

/-- Reads a whole text as a structure. -/
def read (form : Form α) (start : α) (text : String) : Except Unreadable α :=
  form.readSymbols start (Text.symbols text)

end Form

end Rulebook
