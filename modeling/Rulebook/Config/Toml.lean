import Rulebook.Config.Setting
import Rulebook.Text.Hex

/-!
# TOML

The format of configuration files. A file is a sequence of lines that give keys their values or
open a table for the keys that follow. Nothing may be defined twice: a table that has been opened
by a header or closed by braces does not take further keys from elsewhere, and `Node` keeps what is
needed to tell. A file that breaks a rule anywhere is not read at all.

Two limits keep a file from going too deep: values stand in at most `maxDepth` brackets and braces,
and a key has at most `maxDepth` names.
-/

namespace Rulebook.Toml

/-- How a table came to be. -/
inductive Origin where
  /-- on the way to another table -/
  | implied
  /-- by a header of its own -/
  | header
  /-- by a key with dots -/
  | dotted
deriving DecidableEq

/-- A place in a file that is being read. -/
inductive Node where
  /-- a value, which takes no further keys -/
  | value (value : Setting)
  /-- a table -/
  | table (origin : Origin) (entries : List (String × Node))
  /-- tables under one header, the last one first -/
  | tables (tables : List (List (String × Node)))

/-- A key: names between dots. -/
abbrev Key := List String

/-! ## The tree -/

mutual

/-- The value of a place. -/
def Node.toSetting : Node → Setting
  | .value v => v
  | .table _ entries => .table (entriesToSettings entries)
  | .tables tables => .list (tablesToSettings tables [])

/-- The values of the entries of a table. -/
def entriesToSettings : List (String × Node) → List (String × Setting)
  | [] => []
  | (key, node) :: rest => (key, node.toSetting) :: entriesToSettings rest

/-- The values of tables, turned into the order of the file. -/
def tablesToSettings : List (List (String × Node)) → List Setting → List Setting
  | [], done => done
  | entries :: rest, done => tablesToSettings rest (.table (entriesToSettings entries) :: done)

end

/-- Entries of a table. -/
abbrev Entries := List (String × Node)

/-- Replaces an entry, or adds it at the end. -/
def put (key : String) (node : Node) : Entries → Entries
  | [] => [(key, node)]
  | (k, n) :: rest => if k = key then (k, node) :: rest else (k, n) :: put key node rest

/-- Gives a key in a table its value. The tables on the way are made by the key itself; it also
goes through tables that no header has opened, and through the last of several tables. -/
def define (value : Setting) : Key → Entries → Option Entries
  | [], _ => none
  | [name], entries =>
    match entries.lookup name with
    | some _ => none
    | none => some (put name (.value value) entries)
  | name :: rest, entries =>
    match entries.lookup name with
    | none => (define value rest []).map fun inner => put name (.table .dotted inner) entries
    | some (.table .header _) => none
    | some (.table origin inner) =>
      (define value rest inner).map fun inner => put name (.table origin inner) entries
    | some (.tables (last :: before)) =>
      (define value rest last).map fun last => put name (.tables (last :: before)) entries
    | some _ => none

/-- Changes the table that a header names, making the tables on the way. A header that stands for
one of several tables leads to the last of them. -/
def within (f : Entries → Option Entries) : Key → Entries → Option Entries
  | [], entries => f entries
  | name :: rest, entries =>
    match entries.lookup name with
    | none => (within f rest []).map fun inner => put name (.table .implied inner) entries
    | some (.table origin inner) =>
      (within f rest inner).map fun inner => put name (.table origin inner) entries
    | some (.tables (last :: before)) =>
      (within f rest last).map fun last => put name (.tables (last :: before)) entries
    | some _ => none

/-- Opens the table that a header names, which no other header may have opened. -/
def openTable (name : String) (entries : Entries) : Option Entries :=
  match entries.lookup name with
  | none => some (put name (.table .header []) entries)
  | some (.table .implied inner) => some (put name (.table .header inner) entries)
  | some _ => none

/-- Opens one more table under a header with two brackets. -/
def openItem (name : String) (entries : Entries) : Option Entries :=
  match entries.lookup name with
  | none => some (put name (.tables [[]]) entries)
  | some (.tables before) => some (put name (.tables ([] :: before)) entries)
  | some _ => none

/-! ## Characters -/

/-- Drops blanks within a line. -/
def dropBlanks (cs : List Char) : List Char := cs.dropWhile fun c => c == ' ' || c == '\t'

/-- Characters of comments and of texts without escapes. -/
def isPlain (c : Char) : Bool := c == '\t' || (0x20 ≤ c.toNat && c.toNat != 0x7F)

/-- What follows a comment, if one is there; a control character must not be in it. -/
def dropComment : List Char → Option (List Char)
  | '#' :: rest =>
    match rest.dropWhile isPlain with
    | [] => some []
    | '\n' :: after => some ('\n' :: after)
    | '\r' :: '\n' :: after => some ('\n' :: after)
    | _ => none
  | cs => some cs

/-- Drops blanks, comments and line ends. The first argument bounds the number of lines. -/
def dropLines : Nat → List Char → Option (List Char)
  | 0, _ => none
  | fuel + 1, cs =>
    match dropComment (dropBlanks cs) with
    | none => none
    | some ('\n' :: rest) => dropLines fuel rest
    | some ('\r' :: '\n' :: rest) => dropLines fuel rest
    | some rest => some rest

/-- The end of a line or of the file, after blanks and a comment. -/
def endLine (cs : List Char) : Option (List Char) :=
  match dropComment (dropBlanks cs) with
  | none => none
  | some [] => some []
  | some ('\n' :: rest) => some rest
  | some ('\r' :: '\n' :: rest) => some rest
  | some _ => none

/-! ## Texts -/

/-- The character with a code point of so many hexadecimal digits, and what follows. -/
def codePoint (count : Nat) (cs : List Char) : Option (Char × List Char) := do
  let digits ← (cs.take count).mapM Text.hexDigit?
  if digits.length < count then none
  else
    let n := digits.foldl (fun n d => 16 * n + d) 0
    if n.isValidChar then some (Char.ofNat n, cs.drop count) else none

/-- The character after a backslash, and what follows. -/
def escape : List Char → Option (Char × List Char)
  | 'b' :: rest => some ('\x08', rest)
  | 't' :: rest => some ('\t', rest)
  | 'n' :: rest => some ('\n', rest)
  | 'f' :: rest => some ('\x0c', rest)
  | 'r' :: rest => some ('\r', rest)
  | 'e' :: rest => some ('\x1b', rest)
  | '"' :: rest => some ('"', rest)
  | '\\' :: rest => some ('\\', rest)
  | 'x' :: rest => codePoint 2 rest
  | 'u' :: rest => codePoint 4 rest
  | 'U' :: rest => codePoint 8 rest
  | _ => none

/-- A text between double quotes, after the first. The first argument bounds the characters. -/
def basicText : Nat → List Char → List Char → Option (String × List Char)
  | 0, _, _ => none
  | fuel + 1, done, cs =>
    match cs with
    | '"' :: rest => some (String.ofList done.reverse, rest)
    | '\\' :: rest => do
      let (c, rest) ← escape rest
      basicText fuel (c :: done) rest
    | c :: rest => if isPlain c then basicText fuel (c :: done) rest else none
    | [] => none

/-- A text between single quotes, after the first. -/
def literalText (cs : List Char) : Option (String × List Char) :=
  let text := cs.takeWhile fun c => c != '\'' && isPlain c
  match cs.drop text.length with
  | '\'' :: rest => some (String.ofList text, rest)
  | _ => none

/-- Drops the line end right after an opening of three quotes. -/
def dropFirstLine : List Char → List Char
  | '\n' :: rest => rest
  | '\r' :: '\n' :: rest => rest
  | cs => cs

/-- The closing of three quotes: up to two more may stand before it and belong to the text. -/
def closing (quote : Char) (done cs : List Char) : Option (String × List Char) :=
  let run := (cs.takeWhile (· == quote)).length
  if 3 ≤ run ∧ run ≤ 5 then
    some (String.ofList (done.reverse ++ List.replicate (run - 3) quote), cs.drop run)
  else none

/-- Drops blanks and the ends of lines. -/
def dropEmptyLines : List Char → List Char
  | ' ' :: rest | '\t' :: rest | '\n' :: rest | '\r' :: '\n' :: rest => dropEmptyLines rest
  | cs => cs

/-- What follows a backslash at the end of a line, blanks and empty lines dropped. -/
def lineEnding (cs : List Char) : Option (List Char) :=
  match dropBlanks cs with
  | '\n' :: rest | '\r' :: '\n' :: rest => some (dropEmptyLines rest)
  | _ => none

/-- A text between three double quotes, after the first three. The ends of lines stay as they are
written. -/
def basicLines : Nat → List Char → List Char → Option (String × List Char)
  | 0, _, _ => none
  | fuel + 1, done, cs =>
    match cs with
    | '"' :: '"' :: '"' :: _ => closing '"' done cs
    | '\\' :: rest =>
      match lineEnding rest with
      | some rest => basicLines fuel done rest
      | none => do
        let (c, rest) ← escape rest
        basicLines fuel (c :: done) rest
    | '\n' :: rest => basicLines fuel ('\n' :: done) rest
    | '\r' :: '\n' :: rest => basicLines fuel ('\n' :: '\r' :: done) rest
    | c :: rest => if isPlain c then basicLines fuel (c :: done) rest else none
    | [] => none

/-- A text between three single quotes, after the first three. -/
def literalLines : Nat → List Char → List Char → Option (String × List Char)
  | 0, _, _ => none
  | fuel + 1, done, cs =>
    match cs with
    | '\'' :: '\'' :: '\'' :: _ => closing '\'' done cs
    | '\n' :: rest => literalLines fuel ('\n' :: done) rest
    | '\r' :: '\n' :: rest => literalLines fuel ('\n' :: '\r' :: done) rest
    | c :: rest => if isPlain c then literalLines fuel (c :: done) rest else none
    | [] => none

/-! ## Numbers, truth values and times -/

/-- Digits in which single underscores may stand between two, without the underscores. -/
def digitRun (isDigit : Char → Bool) : List Char → Option (List Char)
  | [] => none
  | [c] => if isDigit c then some [c] else none
  | c :: '_' :: rest => if isDigit c then (digitRun isDigit rest).map (c :: ·) else none
  | c :: rest => if isDigit c then (digitRun isDigit rest).map (c :: ·) else none

/-- Digits of a whole number, without leading zeros. -/
def wholeDigits (cs : List Char) : Option (List Char) :=
  match digitRun Decimal.isDigit cs with
  | some ('0' :: _ :: _) => none
  | digits => digits

/-- An integer of 64 bits. -/
def within64 (n : Int) : Option Setting :=
  if -(Nat.pow 2 63 : Int) ≤ n ∧ n < Nat.pow 2 63 then some (.int n) else none

/-- Digits to a base. -/
def based (base : Nat) (cs : List Char) : Option Setting := do
  let isDigit (c : Char) : Bool := match Text.hexDigit? c with
    | some d => d < base
    | none => false
  let digits ← (← digitRun isDigit cs).mapM Text.hexDigit?
  within64 (digits.foldl (fun n d => base * n + d) 0 : Nat)

/-- A sign and what follows it. -/
def sign : List Char → Bool × List Char
  | '-' :: rest => (true, rest)
  | '+' :: rest => (false, rest)
  | cs => (false, cs)

/-- An exponent, after its letter. -/
def exponent? (cs : List Char) : Option Int := do
  let (negative, cs) := sign cs
  let n : Int := Decimal.ofDigits (← digitRun Decimal.isDigit cs)
  return if negative then -n else n

/-- A decimal number after its sign, with a fraction or an exponent or neither. One that is beyond
the range of binary64 is refused. -/
def decimal? (negative : Bool) (cs : List Char) : Option Setting := do
  let isE (c : Char) : Bool := c == 'e' || c == 'E'
  let mantissa := cs.takeWhile fun c => !isE c
  let tail := cs.drop mantissa.length
  let whole ← wholeDigits (mantissa.takeWhile (· != '.'))
  match mantissa.dropWhile (· != '.'), tail with
  | [], [] =>
    let n : Int := Decimal.ofDigits whole
    within64 (if negative then -n else n)
  | point, tail =>
    let fraction ← match point with
      | [] => some []
      | _ :: digits => digitRun Decimal.isDigit digits
    let exponent ← match tail with
      | [] => some 0
      | _ :: digits => exponent? digits
    let x := Binary64.ofDecimal negative
      ⟨Decimal.ofDigits (whole ++ fraction), exponent - fraction.length⟩
    if x.isFinite then some (.real x) else none

/-- Two digits as a number. -/
def pair? (a b : Char) : Option Nat :=
  if Decimal.isDigit a && Decimal.isDigit b then some (Decimal.ofDigits [a, b]) else none

/-- Whether a year has a 29th of February. -/
def isLeapYear (year : Nat) : Bool := year % 4 == 0 && (year % 100 != 0 || year % 400 == 0)

/-- The number of days of a month. -/
def daysInMonth (year month : Nat) : Nat :=
  if month = 2 then if isLeapYear year then 29 else 28
  else if month = 4 ∨ month = 6 ∨ month = 9 ∨ month = 11 then 30
  else 31

/-- A date at the head of characters. -/
def date? : List Char → Option (List Char × List Char)
  | a :: b :: c :: d :: '-' :: e :: f :: '-' :: g :: h :: rest => do
    let year := 100 * (← pair? a b) + (← pair? c d)
    let month ← pair? e f
    let day ← pair? g h
    if 1 ≤ month ∧ month ≤ 12 ∧ 1 ≤ day ∧ day ≤ daysInMonth year month then
      some ([a, b, c, d, '-', e, f, '-', g, h], rest)
    else none
  | _ => none

/-- The fraction of a second at the head of characters: nine places of it without the zeros at its
end, of which one stays if there is nothing else. -/
def fraction? : List Char → Option (List Char × List Char)
  | '.' :: rest =>
    let digits := rest.takeWhile Decimal.isDigit
    if digits.isEmpty then none
    else
      let kept := ((digits.take 9).reverse.dropWhile (· == '0')).reverse
      some ('.' :: (if kept.isEmpty then ['0'] else kept), rest.drop digits.length)
  | cs => some ([], cs)

/-- A time of day at the head of characters; seconds may be left out. -/
def time? : List Char → Option (List Char × List Char)
  | a :: b :: ':' :: c :: d :: rest => do
    let hour ← pair? a b
    let minute ← pair? c d
    if 23 < hour ∨ 59 < minute then none
    else match rest with
      | ':' :: e :: f :: rest =>
        let second ← pair? e f
        if 60 < second then none
        else
          let (fraction, rest) ← fraction? rest
          some ([a, b, ':', c, d, ':', e, f] ++ fraction, rest)
      | rest => some ([a, b, ':', c, d], rest)
  | _ => none

/-- An offset from universal time, or nothing. No offset is written with a plus sign. -/
def offset? : List Char → Option (List Char)
  | [] => some []
  | ['Z'] | ['z'] => some ['Z']
  | [s, a, b, ':', c, d] => do
    let hour ← pair? a b
    let minute ← pair? c d
    let sign := if hour = 0 ∧ minute = 0 then '+' else s
    if (s = '+' ∨ s = '-') ∧ hour ≤ 23 ∧ minute ≤ 59 then some [sign, a, b, ':', c, d] else none
  | _ => none

/-- A date, a time, or both, as a text in one spelling. -/
def moment? (cs : List Char) : Option Setting :=
  match date? cs with
  | some (date, []) => some (.text (String.ofList date))
  | some (date, t :: rest) =>
    if t = 'T' ∨ t = 't' ∨ t = ' ' then do
      let (time, rest) ← time? rest
      let offset ← offset? rest
      return .text (String.ofList (date ++ 'T' :: time ++ offset))
    else none
  | none =>
    match time? cs with
    | some (time, []) => some (.text (String.ofList time))
    | _ => none

/-- A value without quotes or brackets. -/
def word? (cs : List Char) : Option Setting :=
  if cs = "true".toList then some (.bool true)
  else if cs = "false".toList then some (.bool false)
  else match cs with
    | '0' :: 'x' :: digits => based 16 digits
    | '0' :: 'o' :: digits => based 8 digits
    | '0' :: 'b' :: digits => based 2 digits
    | _ =>
      let (negative, unsigned) := sign cs
      if unsigned = "inf".toList then some (.real (.infinite negative))
      else if unsigned = "nan".toList then some (.real .nan)
      else (moment? cs).orElse fun _ => decimal? negative unsigned

/-- Characters of a value without quotes or brackets. -/
def inWord (c : Char) : Bool :=
  ('0' ≤ c && c ≤ '9') || ('a' ≤ c && c ≤ 'z') || ('A' ≤ c && c ≤ 'Z') ||
    c == '+' || c == '-' || c == '.' || c == '_' || c == ':'

/-- A value without quotes or brackets at the head of a text; a blank may stand between a date and
a time. -/
def readWord (cs : List Char) : Option (Setting × List Char) := do
  let word := cs.takeWhile inWord
  let rest := cs.drop word.length
  match date? word, rest with
  | some (_, []), ' ' :: d :: tail =>
    if Decimal.isDigit d then
      let time := (d :: tail).takeWhile inWord
      return (← word? (word ++ ' ' :: time), (d :: tail).drop time.length)
    else return (← word? word, rest)
  | _, _ => return (← word? word, rest)

/-! ## Keys and values -/

/-- Characters of a name without quotes. -/
def inBareName (c : Char) : Bool :=
  ('0' ≤ c && c ≤ '9') || ('a' ≤ c && c ≤ 'z') || ('A' ≤ c && c ≤ 'Z') || c == '_' || c == '-'

/-- A name at the head of a text. -/
def readName (cs : List Char) : Option (String × List Char) :=
  match cs with
  | '"' :: rest => basicText (rest.length + 1) [] rest
  | '\'' :: rest => literalText rest
  | cs =>
    let name := cs.takeWhile inBareName
    if name.isEmpty then none else some (String.ofList name, cs.drop name.length)

/-- How deep values go, and how many names a key has. -/
def maxDepth : Nat := 80

/-- A key at the head of a text, with the blanks around its names, of at most so many names. -/
def readNames : Nat → List Char → Option (Key × List Char)
  | 0, _ => none
  | room + 1, cs => do
    let (name, rest) ← readName (dropBlanks cs)
    match dropBlanks rest with
    | '.' :: rest =>
      let (names, rest) ← readNames room rest
      return (name :: names, rest)
    | rest => return ([name], rest)

/-- A key at the head of a text. -/
def readKey (cs : List Char) : Option (Key × List Char) := readNames maxDepth cs

mutual

/-- A value at the head of a text. The first argument bounds the number of calls, the second is
how many brackets and braces may still be opened around values. -/
def readValue : Nat → Nat → List Char → Option (Setting × List Char)
  | 0, _, _ => none
  | fuel + 1, room, cs =>
    match cs with
    | '"' :: '"' :: '"' :: rest => do
      let (text, rest) ← basicLines (rest.length + 1) [] (dropFirstLine rest)
      return (.text text, rest)
    | '"' :: rest => do
      let (text, rest) ← basicText (rest.length + 1) [] rest
      return (.text text, rest)
    | '\'' :: '\'' :: '\'' :: rest => do
      let (text, rest) ← literalLines (rest.length + 1) [] (dropFirstLine rest)
      return (.text text, rest)
    | '\'' :: rest => do
      let (text, rest) ← literalText rest
      return (.text text, rest)
    | '[' :: rest =>
      if room = 0 then none
      else do
        let (items, rest) ← readItems fuel (room - 1) [] rest
        return (.list items, rest)
    | '\x7b' :: rest =>
      if room = 0 then none
      else do
        let (entries, rest) ← readEntries fuel (room - 1) [] rest
        return (.table (entriesToSettings entries), rest)
    | cs => readWord cs

/-- Items up to the closing bracket, those read so far last one first. -/
def readItems : Nat → Nat → List Setting → List Char → Option (List Setting × List Char)
  | 0, _, _, _ => none
  | fuel + 1, room, done, cs => do
    match ← dropLines (cs.length + 1) cs with
    | ']' :: rest => return (done.reverse, rest)
    | cs =>
      let (item, rest) ← readValue fuel room cs
      match ← dropLines (rest.length + 1) rest with
      | ',' :: rest => readItems fuel room (item :: done) rest
      | ']' :: rest => return ((item :: done).reverse, rest)
      | _ => none

/-- Entries up to the closing brace. -/
def readEntries : Nat → Nat → Entries → List Char → Option (Entries × List Char)
  | 0, _, _, _ => none
  | fuel + 1, room, entries, cs => do
    match ← dropLines (cs.length + 1) cs with
    | '\x7d' :: rest => return (entries, rest)
    | cs =>
      let (key, rest) ← readKey cs
      match rest with
      | '=' :: rest =>
        let (value, rest) ← readValue fuel room (dropBlanks rest)
        let entries ← define value key entries
        match ← dropLines (rest.length + 1) rest with
        | ',' :: rest => readEntries fuel room entries rest
        | '\x7d' :: rest => return (entries, rest)
        | _ => none
      | _ => none

end

/-! ## Files -/

/-- A file that is being read: all entries, and the header of the table that is open. -/
structure Reading where
  entries : Entries
  header : Key

/-- One line that is not empty. -/
def readLine (file : Reading) (cs : List Char) : Option (Reading × List Char) :=
  match cs with
  | '[' :: '[' :: rest => do
    let (key, rest) ← readKey rest
    match rest with
    | ']' :: ']' :: rest =>
      let entries ← within (openItem (key.getLastD "")) key.dropLast file.entries
      return (⟨entries, key⟩, ← endLine rest)
    | _ => none
  | '[' :: rest => do
    let (key, rest) ← readKey rest
    match rest with
    | ']' :: rest =>
      let entries ← within (openTable (key.getLastD "")) key.dropLast file.entries
      return (⟨entries, key⟩, ← endLine rest)
    | _ => none
  | cs => do
    let (key, rest) ← readKey cs
    match rest with
    | '=' :: rest =>
      let (value, rest) ← readValue (2 * rest.length + 2) maxDepth (dropBlanks rest)
      let entries ← within (define value key) file.header file.entries
      return ({ file with entries }, ← endLine rest)
    | _ => none

/-- Lines up to the end. The first argument bounds their number. -/
def readLines : Nat → Reading → List Char → Option Reading
  | 0, _, _ => none
  | fuel + 1, file, cs => do
    match ← dropLines (cs.length + 1) cs with
    | [] => return file
    | cs =>
      let (file, rest) ← readLine file cs
      readLines fuel file rest

/-- The entries of a file, or nothing if it breaks a rule. A file may begin with up to two byte
order marks: the storage takes one away and the format another. -/
def read? (text : String) : Option (List (String × Setting)) := do
  let cs := match text.toList with
    | '\ufeff' :: '\ufeff' :: cs | '\ufeff' :: cs => cs
    | cs => cs
  let file ← readLines (cs.length + 1) ⟨[], []⟩ cs
  return entriesToSettings file.entries

end Rulebook.Toml
