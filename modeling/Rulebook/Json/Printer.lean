import Rulebook.Json.Basic
import Rulebook.Binary64.Shortest

/-!
# Compact text of documents

The text has no blanks and keeps the order of members. A number shows its shortest digits:
positional with a fraction from `10 ^ -5` up to `10 ^ 16`, with an exponent elsewhere.
-/

namespace Rulebook

/-- Scientific notation: one digit, the others after a point, and a signed exponent. -/
def Decimal.scientific (d : Decimal) : List Char :=
  let digits := toDigits d.digits
  let exponent := d.exponent + digits.length - 1
  let mantissa := match digits with
    | first :: second :: rest => first :: '.' :: second :: rest
    | digits => digits
  mantissa ++ 'e' :: (if exponent < 0 then '-' else '+') :: toDigits exponent.natAbs

/-- The shortest decimal of a magnitude as documents show it: positional where the leading digit
stands between the fifth place and the sixteenth, always with a fraction, and scientific
elsewhere. -/
def Magnitude.documentText (m : Magnitude) : List Char :=
  let d := Decimal.shortest .toEven m
  let leading := d.exponent + (Decimal.toDigits d.digits).length - 1
  if m.mantissa = 0 then "0.0".toList
  else if -5 ≤ leading && leading < 16 then
    if 0 ≤ d.exponent then d.positional ++ ".0".toList else d.positional
  else d.scientific

namespace Json

/-- The four hexadecimal digits of a small code point. -/
def hexDigits (n : Nat) : List Char :=
  let digits := Nat.toDigits 16 n
  List.replicate (4 - digits.length) '0' ++ digits

/-- How a character stands inside a quoted text. Quotes, backslashes and the controls below space
are escaped; nothing else is. -/
def escape (c : Char) : List Char :=
  if c = '"' then "\\\"".toList
  else if c = '\\' then "\\\\".toList
  else if c = '\x08' then "\\b".toList
  else if c = '\x0c' then "\\f".toList
  else if c = '\n' then "\\n".toList
  else if c = '\r' then "\\r".toList
  else if c = '\t' then "\\t".toList
  else if c.toNat < 32 then '\\' :: 'u' :: hexDigits c.toNat
  else [c]

/-- A text between quotes. -/
def quote (text : String) : String :=
  "\"" ++ String.ofList (text.toList.flatMap escape) ++ "\""

/-- Text of a number of a document. -/
def numberText : Number → String
  | .int n => if n < 0 then "-" ++ String.ofList (Decimal.toDigits n.natAbs)
    else String.ofList (Decimal.toDigits n.natAbs)
  | .real (.finite negative m) =>
    (if negative then "-" else "") ++ String.ofList m.documentText
  | .real _ => "null"

mutual

/-- The compact text of a document. -/
def print : Json → String
  | .null => "null"
  | .bool value => if value then "true" else "false"
  | .number value => numberText value
  | .text value => quote value
  | .list items => "[" ++ printItems items ++ "]"
  | .object members => "\x7b" ++ printMembers members ++ "\x7d"

/-- The texts of items with commas between them. -/
def printItems : List Json → String
  | [] => ""
  | [item] => item.print
  | item :: next :: items => item.print ++ "," ++ printItems (next :: items)

/-- The texts of members with commas between them. -/
def printMembers : List (String × Json) → String
  | [] => ""
  | [(key, value)] => quote key ++ ":" ++ value.print
  | (key, value) :: next :: rest =>
    quote key ++ ":" ++ value.print ++ "," ++ printMembers (next :: rest)

end

end Json

end Rulebook
