import Rulebook.Json.Fault
import Rulebook.Text.Blank

/-!
# Timestamps

A timestamp is a second of universal time and a part of it in nanoseconds; the part runs on past
`10 ^ 9` inside a leap second. It is read from RFC 3339 notation, taken loosely: blanks may stand
before the numbers and the signs between them, the year may have a sign and more digits, and the
word `UTC` may stand for the offset. It is written in universal time with as many places as it
needs, none, three, six or nine.
-/

namespace Rulebook

/-- An instant of universal time. -/
structure Timestamp where
  /-- seconds since the start of 1970 -/
  seconds : Int
  /-- nanoseconds within the second; a leap second continues the second before it -/
  nanos : Nat
deriving DecidableEq

namespace Timestamp

/-- Timestamps in the order of time. -/
def before (a b : Timestamp) : Bool :=
  a.seconds < b.seconds || (a.seconds == b.seconds && a.nanos < b.nanos)

/-! ## The calendar -/

/-- Leap years of the Gregorian calendar. -/
def isLeapYear (year : Int) : Bool :=
  year % 4 == 0 && (year % 100 != 0 || year % 400 == 0)

/-- The number of days of a month. -/
def daysInMonth (year : Int) (month : Nat) : Nat :=
  if month = 2 then if isLeapYear year then 29 else 28
  else if month = 4 ∨ month = 6 ∨ month = 9 ∨ month = 11 then 30
  else 31

/-- The days from the start of 1970 to a date. Years are counted from March, so that the day that
leap years add is the last one. -/
def dayNumber (year : Int) (month day : Nat) : Int :=
  let y := if month ≤ 2 then year - 1 else year
  let era := y / 400
  let yearOfEra := y % 400
  let monthFromMarch : Int := (month + 9) % 12
  let dayOfYear := (153 * monthFromMarch + 2) / 5 + day - 1
  let dayOfEra := yearOfEra * 365 + yearOfEra / 4 - yearOfEra / 100 + dayOfYear
  era * 146097 + dayOfEra - 719468

/-- The date that many days after the start of 1970. -/
def dateOfDay (days : Int) : Int × Nat × Nat :=
  let z := days + 719468
  let era := z / 146097
  let dayOfEra := z % 146097
  let yearOfEra :=
    (dayOfEra - dayOfEra / 1460 + dayOfEra / 36524 - dayOfEra / 146096) / 365
  let dayOfYear := dayOfEra - (365 * yearOfEra + yearOfEra / 4 - yearOfEra / 100)
  let monthFromMarch := (5 * dayOfYear + 2) / 153
  let day := dayOfYear - (153 * monthFromMarch + 2) / 5 + 1
  let month := if monthFromMarch < 10 then monthFromMarch + 3 else monthFromMarch - 9
  let year := yearOfEra + era * 400 + (if month ≤ 2 then 1 else 0)
  (year, month.toNat, day.toNat)

/-- The first day that the calendar has. -/
def firstDay : Int := dayNumber (-262143) 1 1

/-- The last day that the calendar has. -/
def lastDay : Int := dayNumber 262142 12 31

/-! ## Reading -/

/-- Why a text is not a timestamp. -/
inductive Mistake where
  /-- the text ends too early -/
  | short
  /-- a character cannot stand where it stands -/
  | invalid
  /-- a number is too large or too small -/
  | outOfRange
  /-- something follows the timestamp -/
  | trailing
  /-- the instant is beyond the calendar -/
  | impossible
deriving DecidableEq

/-- The text of a mistake. -/
def Mistake.message : Mistake → String
  | .short => "premature end of input"
  | .invalid => "input contains invalid characters"
  | .outOfRange => "input is out of range"
  | .trailing => "trailing input"
  | .impossible => "no possible date and time matching input"

/-- The digits at the head of a text, at most so many. -/
def digitsUpTo : Nat → List Char → List Char
  | limit + 1, c :: rest => if Decimal.isDigit c then c :: digitsUpTo limit rest else []
  | _, _ => []

/-- A number of at most so many digits; blanks may stand before it. -/
def readNumber (limit : Nat) (cs : List Char) : Except Mistake (Nat × List Char) :=
  let cs := Text.dropBlank cs
  match cs with
  | [] => .error .short
  | _ =>
    let digits := digitsUpTo limit cs
    if digits.isEmpty then .error .invalid
    else .ok (Decimal.ofDigits digits, cs.drop digits.length)

/-- A number within bounds. -/
def readWithin (low high : Nat) (cs : List Char) : Except Mistake (Nat × List Char) := do
  let (n, rest) ← readNumber 2 cs
  if low ≤ n ∧ n ≤ high then return (n, rest) else .error .outOfRange

/-- A number of any length after a sign. -/
def readSigned (negative : Bool) (cs : List Char) : Except Mistake (Int × List Char) :=
  match cs with
  | [] => .error .short
  | _ =>
    let digits := cs.takeWhile Decimal.isDigit
    if digits.isEmpty then .error .invalid
    else
      let n : Int := Decimal.ofDigits digits
      let year := if negative then -n else n
      if -(Nat.pow 2 31 : Int) ≤ year ∧ year < Nat.pow 2 31 then .ok (year, cs.drop digits.length)
      else .error .outOfRange

/-- A year: four digits at most, or any number of them after a sign. -/
def readYear (cs : List Char) : Except Mistake (Int × List Char) :=
  match Text.dropBlank cs with
  | '-' :: rest => readSigned true rest
  | '+' :: rest => readSigned false rest
  | cs => do
    let (n, rest) ← readNumber 4 cs
    return ((n : Int), rest)

/-- One character; blanks may stand before it. -/
def readSign (sign : Char) (cs : List Char) : Except Mistake (Unit × List Char) :=
  match Text.dropBlank cs with
  | [] => .error .short
  | c :: rest => if c = sign then .ok ((), rest) else .error .invalid

/-- The places of a second after a point; the first nine of them count. -/
def readFraction (cs : List Char) : Except Mistake (Nat × List Char) :=
  match cs with
  | '.' :: [] => .error .short
  | '.' :: rest =>
    let digits := digitsUpTo 9 rest
    if digits.isEmpty then .error .invalid
    else .ok (Decimal.ofDigits digits * Nat.pow 10 (9 - digits.length),
      rest.dropWhile Decimal.isDigit)
  | cs => .ok (0, cs)

/-- Two digits, the first at most `high`; a larger first digit is out of range. -/
def readPair (high : Nat) (cs : List Char) : Except Mistake (Nat × List Char) :=
  match cs with
  | a :: b :: rest =>
    if Decimal.isDigit a && Decimal.isDigit b then
      if a.toNat - '0'.toNat ≤ high then .ok (Decimal.ofDigits [a, b], rest)
      else .error .outOfRange
    else .error .invalid
  | [c] => if c.utf8Size < 2 then .error .short else .error .invalid
  | [] => .error .short

/-- An offset from universal time in seconds. -/
def readOffset (cs : List Char) : Except Mistake (Int × List Char) :=
  let signed (negative : Bool) (cs : List Char) : Except Mistake (Int × List Char) := do
    let (hours, cs) ← readPair 9 cs
    let (minutes, cs) ← readPair 5 (cs.dropWhile fun c => c == ':' || Text.isBlank c)
    let seconds : Int := hours * 3600 + minutes * 60
    return (if negative then -seconds else seconds, cs)
  match cs with
  | 'Z' :: rest | 'z' :: rest => .ok (0, rest)
  | '+' :: rest => signed false rest
  | '-' :: rest | '\u2212' :: rest => signed true rest
  | [] => .error .short
  | _ => .error .invalid

/-- An offset, or the word for none. -/
def readZone (cs : List Char) : Except Mistake (Int × List Char) :=
  match cs with
  | u :: t :: c :: rest =>
    if [u, t, c].map Char.toUpper = "UTC".toList then .ok (0, rest) else readOffset cs
  | _ => readOffset cs

/-- The instant of a date and a time of day with an offset. -/
def ofParts (year : Int) (month day hour minute second nanos : Nat) (offset : Int) :
    Except Mistake Timestamp :=
  let number := dayNumber year month day
  let leap := second = 60
  let seconds : Int :=
    number * 86400 + hour * 3600 + minute * 60 + (if leap then 59 else second) - offset
  if daysInMonth year month < day ∨ number < firstDay ∨ lastDay < number then .error .outOfRange
  else if offset ≤ -86400 ∨ 86400 ≤ offset then .error .outOfRange
  else if seconds / 86400 < firstDay ∨ lastDay < seconds / 86400 then .error .impossible
  else .ok ⟨seconds, if leap then Nat.pow 10 9 + nanos else nanos⟩

/-- The timestamp that a text writes. -/
def read (text : String) : Except Mistake Timestamp := do
  let (year, cs) ← readYear text.toList
  let (_, cs) ← readSign '-' cs
  let (month, cs) ← readWithin 1 12 cs
  let (_, cs) ← readSign '-' cs
  let (day, cs) ← readWithin 1 31 cs
  let cs ← match cs with
    | [] => .error .short
    | c :: rest => if c = 'T' ∨ c = 't' ∨ c = ' ' then .ok rest else .error .invalid
  let (hour, cs) ← readWithin 0 23 cs
  let (_, cs) ← readSign ':' cs
  let (minute, cs) ← readWithin 0 59 cs
  let (_, cs) ← readSign ':' cs
  let (second, cs) ← readWithin 0 60 cs
  let (nanos, cs) ← readFraction cs
  let (offset, cs) ← readZone (Text.dropBlank cs)
  if !(Text.dropBlank cs).isEmpty then .error .trailing
  else ofParts year month day hour minute second nanos offset

/-! ## Writing -/

/-- A number with at least so many digits. -/
def padded (width n : Nat) : List Char :=
  let digits := Decimal.toDigits n
  List.replicate (width - digits.length) '0' ++ digits

/-- A year; one that does not have four digits gets a sign. -/
def yearText (year : Int) : List Char :=
  if 0 ≤ year ∧ year ≤ 9999 then padded 4 year.toNat
  else (if year < 0 then '-' else '+') :: padded 4 year.natAbs

/-- The places of a second: none, three, six or nine. -/
def fractionText (nanos : Nat) : List Char :=
  if nanos = 0 then []
  else if nanos % 1000000 = 0 then '.' :: padded 3 (nanos / 1000000)
  else if nanos % 1000 = 0 then '.' :: padded 6 (nanos / 1000)
  else '.' :: padded 9 nanos

/-- The text of a timestamp. -/
def print (t : Timestamp) : String :=
  let (year, month, day) := dateOfDay (t.seconds / 86400)
  let ofDay := (t.seconds % 86400).toNat
  let leap := Nat.pow 10 9 ≤ t.nanos
  let second := ofDay % 60 + (if leap then 1 else 0)
  let nanos := if leap then t.nanos - Nat.pow 10 9 else t.nanos
  String.ofList (yearText year ++ '-' :: padded 2 month ++ '-' :: padded 2 day ++
    'T' :: padded 2 (ofDay / 3600) ++ ':' :: padded 2 (ofDay / 60 % 60) ++
    ':' :: padded 2 second ++ fractionText nanos ++ ['Z'])

/-- The timestamp that a document is. -/
def ofJson : Json → Except Fault Timestamp
  | .text value =>
    match read value with
    | .ok t => .ok t
    | .error m => .error (.refused m.message)
  | value => .error (.wrongType value "an RFC 3339 formatted date and time string")

end Timestamp

end Rulebook
