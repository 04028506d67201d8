import Rulebook.Json.Basic
import Rulebook.Json.Numeral
import Rulebook.Text.Hex
import Rulebook.Text.Symbols

/-!
# Document text, as far as it can be read

A text is read from left to right, and what a reader makes of it may be decided before the text
is read to its end: a member that nobody asked for is skipped with fewer checks, and a value of
the wrong kind is refused before a later mistake in the text is seen. `Source` is the text cut
into values as far as its shape goes. Each place where reading and skipping can end differently
says how each ends, so that a reader of any kind of value walks the source in the order of the
text and stops at the first thing it cannot use. The text may be one that was sent as bytes and
is none: bytes that are no characters can only be skipped, and only inside quotes.
-/

namespace Rulebook

/-- Why a text is not a document. -/
inductive Failure where
  /-- the text ends before the document does -/
  | ended
  /-- a character cannot stand where it stands -/
  | malformed
deriving DecidableEq

/-- The text of a document, cut into values. -/
inductive Source where
  | null
  | bool (value : Bool)
  /-- a number, unless it is beyond the range of binary64; reading such a one fails -/
  | number (value : Option Number)
  /-- a text; reading one with half of a surrogate pair or with bytes that are no characters
  fails -/
  | text (value : Except Failure String)
  /-- items and, if the list is not closed, why not -/
  | list (items : List Source) (stop : Option Failure)
  /-- members and, if the object is not closed, why not -/
  | object (members : List (Except Failure String × Source)) (stop : Option Failure)
  /-- nothing that has a shape: how reading it ends and how skipping it ends -/
  | broken (reading skipping : Failure)

namespace Source

open Text (Symbol)

/-- A blank that may stand between the parts of a document. -/
def isSpace : Symbol → Bool
  | .char c => c == ' ' || c == '\n' || c == '\t' || c == '\r'
  | .stray => false

/-- Drops the blanks at the head of a text. -/
def dropSpace (ss : List Symbol) : List Symbol := ss.dropWhile isSpace

/-! ## Texts -/

/-- The value of four hexadecimal digits. -/
def hexQuad? (a b c d : Char) : Option Nat := do
  let high := (← Text.hexDigit? a) * 16 + (← Text.hexDigit? b)
  let low := (← Text.hexDigit? c) * 16 + (← Text.hexDigit? d)
  return high * 256 + low

/-- The first half of a surrogate pair. -/
def isLead (n : Nat) : Bool := 0xD800 ≤ n && n ≤ 0xDBFF

/-- The second half of a surrogate pair. -/
def isTrail (n : Nat) : Bool := 0xDC00 ≤ n && n ≤ 0xDFFF

/-- The character that one letter after a backslash stands for. -/
def simpleEscape? (c : Char) : Option Char :=
  if c = '"' ∨ c = '\\' ∨ c = '/' then some c
  else if c = 'b' then some '\x08'
  else if c = 'f' then some '\x0c'
  else if c = 'n' then some '\n'
  else if c = 'r' then some '\r'
  else if c = 't' then some '\t'
  else none

/-- What has been read of a text: its symbols, last one first, a first half of a surrogate pair
that waits for its second, and the failure that reading has met. -/
structure Written where
  symbols : List Symbol
  lead : Option Nat
  failure : Option Failure

namespace Written

/-- Nothing read yet. -/
def start : Written := ⟨[], none, none⟩

/-- A failure; an earlier one stays. -/
def fail (w : Written) (f : Failure) : Written := { w with failure := w.failure.or (some f) }

/-- A half that waits cannot be completed any more. -/
def settle (w : Written) : Written :=
  if w.lead.isSome then { w.fail .malformed with lead := none } else w

/-- One more symbol. -/
def push (w : Written) (s : Symbol) : Written :=
  let w := w.settle
  { w with symbols := s :: w.symbols }

/-- One more code unit written with four hexadecimal digits. -/
def pushUnit (w : Written) (n : Nat) : Written :=
  match w.lead with
  | some lead =>
    if isTrail n then
      let c := Char.ofNat (0x10000 + (lead - 0xD800) * 0x400 + (n - 0xDC00))
      { w with symbols := .char c :: w.symbols, lead := none }
    else { w.fail .malformed with lead := none }
  | none =>
    if isTrail n then w.fail .malformed
    else if isLead n then { w with lead := some n }
    else { w with symbols := .char (Char.ofNat n) :: w.symbols }

/-- The text, once its closing quote is met. Only then it is seen that a symbol is none of a
text. -/
def finish (w : Written) : Except Failure String :=
  let w := w.settle
  match w.failure, w.symbols.reverse.mapM Symbol.char? with
  | some f, _ => .error f
  | none, some cs => .ok (String.ofList cs)
  | none, none => .error .malformed

end Written

/-- A text after its opening quote: what reading it gives, and what stands after its closing quote
or the failure of skipping it. -/
def readText (w : Written) : List Symbol → Except Failure String × Except Failure (List Symbol)
  | [] => (.error (w.failure.getD .ended), .error .ended)
  | .char '"' :: rest => (w.finish, .ok rest)
  | .char '\\' :: .char 'u' :: .char a :: .char b :: .char c :: .char d :: rest =>
    match hexQuad? a b c d with
    | some n => readText (w.pushUnit n) rest
    | none => (.error (w.failure.getD .malformed), .error .malformed)
  | .char '\\' :: .char 'u' :: rest =>
    let f : Failure := if Symbol.sizes rest < 4 then .ended else .malformed
    (.error (w.failure.getD f), .error f)
  | [.char '\\'] => (.error (w.failure.getD .ended), .error .ended)
  | .char '\\' :: s :: rest =>
    match s.char?.bind simpleEscape? with
    | some c => readText (w.push (.char c)) rest
    | none => (.error (w.failure.getD .malformed), .error .malformed)
  | .stray :: rest => readText (w.push .stray) rest
  | .char c :: rest =>
    if c.toNat < 32 then (.error ((w.settle).failure.getD .malformed), .error .malformed)
    else readText (w.push (.char c)) rest

/-! ## Numbers -/

/-- The digits at the head of a text, and what follows them. -/
def spanDigits : List Symbol → List Char × List Symbol
  | .char c :: rest =>
    if Decimal.isDigit c then
      let (digits, rest) := spanDigits rest
      (c :: digits, rest)
    else ([], .char c :: rest)
  | rest => ([], rest)

/-- A failure at the end of the text that skipping does not tell from a wrong character. -/
def numberEnd (rest : List Symbol) : Source :=
  .broken (if rest.isEmpty then .ended else .malformed) .malformed

/-- The binary64 number that is read for a decimal, unless it is beyond the range. -/
def real (negative : Bool) (d : Decimal) : Option Number :=
  d.reading?.map fun m => .real (.finite negative m)

/-- The number that is read for digits alone: an integer if all of them fit. A minus sign before
zero, or before more than an integer with a sign can hold, makes it a binary64 number. -/
def integer (negative : Bool) (d : Decimal) : Option Number :=
  if d.exponent ≠ 0 then real negative d
  else if negative then
    if d.digits = 0 ∨ Nat.pow 2 63 < d.digits then real negative d else some (.int (-d.digits))
  else some (.int d.digits)

/-- What follows the fraction of a number: an exponent or nothing. -/
def readExponent (negative : Bool) (d : Decimal) (rest : List Symbol) : Source × List Symbol :=
  match rest with
  | .char e :: tail =>
    if e == 'e' || e == 'E' then
      let (minus, tail) : Bool × List Symbol := match tail with
        | .char '-' :: ds => (true, ds)
        | .char '+' :: ds => (false, ds)
        | ds => (false, ds)
      let (digits, after) := spanDigits tail
      if digits.isEmpty then (numberEnd after, after)
      else
        let n : Int := Decimal.ofDigits digits
        let exponent := d.exponent + (if minus then -n else n)
        (.number (real negative ⟨d.digits, exponent⟩), after)
    else (.number (real negative d), rest)
  | _ => (.number (real negative d), rest)

/-- A number after its sign. A zero is never followed by a digit. -/
def readUnsigned (negative : Bool) (ss : List Symbol) : Source × List Symbol :=
  let (whole, rest) := spanDigits ss
  match whole with
  | [] => (numberEnd rest, rest)
  | '0' :: _ :: _ => (.broken .malformed .malformed, rest)
  | _ =>
    let d := Decimal.takeWhole 0 whole
    match rest with
    | .char '.' :: tail =>
      let (fraction, after) := spanDigits tail
      if fraction.isEmpty then (numberEnd after, after)
      else readExponent negative (d.takeFraction fraction) after
    | .char e :: _ =>
      if e == 'e' || e == 'E' then readExponent negative d rest
      else (.number (integer negative d), rest)
    | _ => (.number (integer negative d), rest)

/-! ## Values -/

/-- One of the three words, of which the first letter is read already. -/
def readWord (value : Source) (word : List Char) (ss : List Symbol) :
    Source × Option (List Symbol) :=
  match word, ss with
  | [], rest => (value, some rest)
  | _ :: _, [] => (.broken .ended .ended, none)
  | c :: word, s :: rest =>
    if s = .char c then readWord value word rest else (.broken .malformed .malformed, none)

/-- A source that cannot be used, and nothing after it. -/
def failed (f : Failure) : Source × Option (List Symbol) := (.broken f f, none)

/-- A number is followed by the rest of the text unless it is broken. -/
def closeNumber : Source × List Symbol → Source × Option (List Symbol)
  | (.broken r s, _) => (.broken r s, none)
  | (source, rest) => (source, some rest)

mutual

/-- The value at the head of a text and, if its shape is whole, what follows it. The first
argument bounds the number of calls. -/
def readValue : Nat → List Symbol → Source × Option (List Symbol)
  | 0, _ => failed .malformed
  | fuel + 1, ss =>
    match dropSpace ss with
    | [] => failed .ended
    | .char 'n' :: rest => readWord .null "ull".toList rest
    | .char 't' :: rest => readWord (.bool true) "rue".toList rest
    | .char 'f' :: rest => readWord (.bool false) "alse".toList rest
    | .char '-' :: rest => closeNumber (readUnsigned true rest)
    | .char '"' :: rest =>
      match readText .start rest with
      | (value, .ok rest) => (.text value, some rest)
      | (.error reading, .error skipping) => (.broken reading skipping, none)
      | (.ok _, .error skipping) => failed skipping
    | .char '[' :: rest =>
      let (items, stop, after) := readItems fuel true rest
      (.list items stop, after)
    | .char '\x7b' :: rest =>
      let (members, stop, after) := readMembers fuel true rest
      (.object members stop, after)
    | .char c :: rest =>
      if Decimal.isDigit c then closeNumber (readUnsigned false (.char c :: rest))
      else failed .malformed
    | .stray :: _ => failed .malformed

/-- Items up to the closing bracket; the flag holds before the first one. -/
def readItems : Nat → Bool → List Symbol →
    List Source × Option Failure × Option (List Symbol)
  | 0, _, _ => ([], some .malformed, none)
  | fuel + 1, first, ss =>
    match dropSpace ss with
    | [] => ([], some .ended, none)
    | .char ']' :: rest => ([], none, some rest)
    | .char ',' :: rest =>
      if first then ([], some .malformed, none)
      else match dropSpace rest with
        | [] => ([], some .ended, none)
        | .char ']' :: _ => ([], some .malformed, none)
        | ss => readItem fuel ss
    | ss => if first then readItem fuel ss else ([], some .malformed, none)

/-- One item and those after it. -/
def readItem : Nat → List Symbol → List Source × Option Failure × Option (List Symbol)
  | 0, _ => ([], some .malformed, none)
  | fuel + 1, ss =>
    match readValue fuel ss with
    | (item, none) => ([item], none, none)
    | (item, some rest) =>
      let (items, stop, after) := readItems fuel false rest
      (item :: items, stop, after)

/-- Members up to the closing brace; the flag holds before the first one. -/
def readMembers : Nat → Bool → List Symbol →
    List (Except Failure String × Source) × Option Failure × Option (List Symbol)
  | 0, _, _ => ([], some .malformed, none)
  | fuel + 1, first, ss =>
    match dropSpace ss with
    | [] => ([], some .ended, none)
    | .char '\x7d' :: rest => ([], none, some rest)
    | .char ',' :: rest =>
      if first then ([], some .malformed, none)
      else match dropSpace rest with
        | [] => ([], some .ended, none)
        | .char '"' :: rest => readMember fuel rest
        | _ => ([], some .malformed, none)
    | .char '"' :: rest => if first then readMember fuel rest else ([], some .malformed, none)
    | _ => ([], some .malformed, none)

/-- A member after the opening quote of its key, and those after it. -/
def readMember : Nat → List Symbol →
    List (Except Failure String × Source) × Option Failure × Option (List Symbol)
  | 0, _ => ([], some .malformed, none)
  | fuel + 1, ss =>
    match readText .start ss with
    | (key, .error f) => ([(key, .broken f f)], none, none)
    | (key, .ok rest) =>
      match dropSpace rest with
      | [] => ([(key, .broken .ended .ended)], none, none)
      | .char ':' :: rest =>
        match readValue fuel rest with
        | (value, none) => ([(key, value)], none, none)
        | (value, some rest) =>
          let (members, stop, after) := readMembers fuel false rest
          ((key, value) :: members, stop, after)
      | _ => ([(key, .broken .malformed .malformed)], none, none)

end

/-- The value at the head of a text, and what follows it if its shape is whole. -/
def ofSymbols (ss : List Symbol) : Source × Option (List Symbol) :=
  readValue (3 * ss.length + 3) ss

/-! ## Walking a source -/

/-- How deep lists and objects may stand inside each other. -/
def nestingLimit : Nat := 127

mutual

/-- Skips a value: the first failure of its shape. -/
def skip : Source → Option Failure
  | .null | .bool _ | .number _ | .text _ => none
  | .broken _ skipping => some skipping
  | .list items stop => (skipItems items).or stop
  | .object members stop => (skipMembers members).or stop

/-- Skips items. -/
def skipItems : List Source → Option Failure
  | [] => none
  | item :: items => (item.skip).or (skipItems items)

/-- Skips members. -/
def skipMembers : List (Except Failure String × Source) → Option Failure
  | [] => none
  | (_, value) :: rest => (value.skip).or (skipMembers rest)

end

/-- The value unless something stopped it. -/
def closed {α : Type} (stop : Option Failure) (value : α) : Except Failure α :=
  match stop with
  | some f => .error f
  | none => .ok value

mutual

/-- Reads a value of any kind. The first argument says how many more lists and objects may stand
inside each other. Members keep the order of the text and may repeat a key. -/
def content : Nat → Source → Except Failure Json
  | _, .null => .ok .null
  | _, .bool value => .ok (.bool value)
  | _, .number (some value) => .ok (.number value)
  | _, .number none => .error .malformed
  | _, .text value => value.map Json.text
  | _, .broken reading _ => .error reading
  | 0, .list .. => .error .malformed
  | 0, .object .. => .error .malformed
  | limit + 1, .list items stop => do closed stop (.list (← contentItems limit items))
  | limit + 1, .object members stop => do closed stop (.object (← contentMembers limit members))

/-- Reads items of any kind. -/
def contentItems : Nat → List Source → Except Failure (List Json)
  | _, [] => .ok []
  | limit, item :: items => do
    let value ← item.content limit
    return value :: (← contentItems limit items)

/-- Reads members of any kind. -/
def contentMembers : Nat → List (Except Failure String × Source) →
    Except Failure (List (String × Json))
  | _, [] => .ok []
  | limit, (key, value) :: rest => do
    let key ← key
    let value ← value.content limit
    return (key, value) :: (← contentMembers limit rest)

end

/-- What may follow a document: blanks only. -/
def trailing (rest : Option (List Symbol)) : Except Failure Unit :=
  match rest with
  | none => .ok ()
  | some ss => if (dropSpace ss).isEmpty then .ok () else .error .malformed

end Source

/-- Reads a whole text as a document in which lists and objects stand inside each other at most
`limit` deep. -/
def Json.readWithin (limit : Nat) (text : String) : Except Failure Json := do
  let (source, rest) := Source.ofSymbols (Text.symbols text)
  let value ← source.content limit
  Source.trailing rest
  return value.canonical

/-- Reads a whole text as a document. -/
def Json.read (text : String) : Except Failure Json := Json.readWithin Source.nestingLimit text

end Rulebook
