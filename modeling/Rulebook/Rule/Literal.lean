import Rulebook.Json.Fault

/-!
# Literals

The right side of a condition is a number or a text, and which of the two is settled when it is
read: a word that writes a finite number is that number, and any other word is a text, less one
pair of matching quotes around it. Words that write something infinite stay texts.
-/

namespace Rulebook

/-- The right side of a condition. -/
inductive Literal where
  | number (value : Binary64)
  | text (value : String)
deriving DecidableEq

namespace Literal

/-- The two characters that may quote a text literal. -/
def isQuote (c : Char) : Bool := c == '\'' || c == '"'

/-- The text without its first and last character, if these are the same quote. -/
def unquote (word : String) : String :=
  match word.toList with
  | first :: rest =>
    if isQuote first && rest.getLast? == some first then String.ofList rest.dropLast else word
  | [] => word

/-- The literal that a word writes. -/
def ofWord (word : String) : Literal :=
  match Binary64.read? word with
  | some x => if x.isFinite then .number x else .text (unquote word)
  | none => .text (unquote word)

/-- The number of a numeric literal. -/
def number? : Literal → Option Binary64
  | .number x => some x
  | .text _ => none

/-- The text of a text literal. -/
def text? : Literal → Option String
  | .number _ => none
  | .text s => some s

/-- Holds unless the literal is an infinity or not a number. -/
def isFinite : Literal → Bool
  | .number x => x.isFinite
  | .text _ => true

/-- The text of a numeric literal: an integer below `10 ^ 15` shows its digits, any other number
its shortest positional form. The zeros show alike. -/
def numberDisplay (x : Binary64) : String :=
  match x.integer? with
  | some n =>
    if n.natAbs < Nat.pow 10 15 then Json.numberText (.int n) else x.positional
  | none => x.positional

/-- The literal as a rule shows it. A text stands between single quotes as it is. -/
def display : Literal → String
  | .number x => numberDisplay x
  | .text s => "'" ++ s ++ "'"

/-- Equality as conditions see it: numbers by position, texts by characters. -/
def same : Literal → Literal → Bool
  | .number x, .number y => x.same y
  | .text s, .text t => s == t
  | _, _ => false

/-- The literal as a document. -/
def toJson : Literal → Json
  | .number x => .ofBinary64 x
  | .text s => .text s

/-- The literal that a document is. -/
def ofJson : Json → Except Fault Literal
  | .number n => .ok (.number n.toBinary64)
  | .text s => .ok (.text s)
  | _ => .error .noLiteral

end Literal

end Rulebook
