import Rulebook.Json.Printer
import Rulebook.Text.Quoted

/-!
# Faults of documents

A fault says why a document is not a value of the kind that was asked for. The wording lives in
`message`; readers name only the cause.
-/

namespace Rulebook

/-- Why a document is not what it should be. -/
inductive Fault where
  /-- a value of another kind -/
  | wrongType (found : Json) (expected : String)
  /-- a value of the right kind that is out of range -/
  | wrongValue (found : Json) (expected : String)
  /-- a list with too few or too many items -/
  | wrongLength (count : Nat) (expected : String)
  /-- a member that is not there -/
  | missingField (name : String)
  /-- a member that is there twice -/
  | duplicateField (name : String)
  /-- a word that is none of the known ones -/
  | unknownVariant (name : String) (options : List String)
  /-- a value that is neither a number nor a text -/
  | noLiteral
  /-- a well-formed value that the domain refuses, in the domain's words -/
  | refused (text : String)

namespace Fault

/-- What a message calls the value it found. -/
def describe : Json → String
  | .null => "null"
  | .bool value => "boolean `" ++ (if value then "true" else "false") ++ "`"
  | .number (.int n) => "integer `" ++ Json.numberText (.int n) ++ "`"
  | .number (.real x) => "floating point `" ++ Json.numberText (.real x) ++ "`"
  | .text value => "string " ++ Text.quoted value
  | .list _ => "sequence"
  | .object _ => "map"

/-- The known words as a message lists them. -/
def choices : List String → String
  | [] => "there are no variants"
  | [a] => "expected `" ++ a ++ "`"
  | [a, b] => "expected `" ++ a ++ "` or `" ++ b ++ "`"
  | options => "expected one of " ++ ", ".intercalate (options.map fun o => "`" ++ o ++ "`")

/-- The text of a fault. -/
def message : Fault → String
  | .wrongType found expected =>
    "invalid type: " ++ describe found ++ ", expected " ++ expected
  | .wrongValue found expected =>
    "invalid value: " ++ describe found ++ ", expected " ++ expected
  | .wrongLength count expected =>
    "invalid length " ++ String.ofList (Decimal.toDigits count) ++ ", expected " ++ expected
  | .missingField name => "missing field `" ++ name ++ "`"
  | .duplicateField name => "duplicate field `" ++ name ++ "`"
  | .unknownVariant name options => "unknown variant `" ++ name ++ "`, " ++ choices options
  | .noLiteral => "data did not match any variant of untagged enum Literal"
  | .refused text => text

end Fault

/-! ## Readers of plain values -/

namespace Json

/-- A document that must be a text. -/
def asText : Json → Except Fault String
  | .text value => .ok value
  | value => .error (.wrongType value "a string")

/-- A document that must be a truth value. -/
def asBool : Json → Except Fault Bool
  | .bool value => .ok value
  | value => .error (.wrongType value "a boolean")

/-- A document that must be a natural number below a bound; `kind` names such numbers. -/
def asNat (bound : Nat) (kind : String) : Json → Except Fault Nat
  | .number (.int n) =>
    if 0 ≤ n ∧ n < bound then .ok n.toNat else .error (.wrongValue (.number (.int n)) kind)
  | value => .error (.wrongType value kind)

/-- A document that must be a list of texts. -/
def asTexts : Json → Except Fault (List String)
  | .list items => items.mapM asText
  | value => .error (.wrongType value "a sequence")

end Json

end Rulebook
