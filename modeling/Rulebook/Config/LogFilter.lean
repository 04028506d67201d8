import Rulebook.Binary64.Shortest
import Rulebook.Config.Pattern

/-!
# Log filters

A filter is a list of directives between commas. A directive is a level, or a target with a level,
or names a span and fields of it between brackets; a target without a level lets everything
through. A filter is shown with the most special directives first: longer targets before shorter
ones, and directives on spans and their fields after all others. Of directives that differ in the
level only, the last counts. A filter without directives lets nothing through.
-/

namespace Rulebook

/-- How much is let through. -/
inductive LogLevel where
  | off
  | error
  | warn
  | info
  | debug
  | trace
deriving DecidableEq

namespace LogLevel

/-- The name of a level. -/
def name : LogLevel → String
  | .off => "off"
  | .error => "error"
  | .warn => "warn"
  | .info => "info"
  | .debug => "debug"
  | .trace => "trace"

/-- All levels. -/
def all : List LogLevel := [.off, .error, .warn, .info, .debug, .trace]

/-- The level that a number stands for: its position among the levels. -/
def ofNumber? (text : String) : Option LogLevel :=
  let digits := match text.toList with
    | '+' :: ds => ds
    | ds => ds
  if digits.isEmpty || !digits.all Decimal.isDigit then none
  else all[Decimal.ofDigits digits]?

/-- The level that a word or a number stands for. Case does not matter. -/
def ofText? (text : String) : Option LogLevel :=
  match ofNumber? text with
  | some level => some level
  | none => all.find? fun level => level.name.toList == text.toList.map Char.toLower

end LogLevel

namespace LogFilter

/-- What a field of a span must be: a value of one of the kinds that fields have, or a text that
matches a pattern. -/
inductive Value where
  | truth (value : Bool)
  | real (value : Binary64)
  /-- what is not a number -/
  | nan
  | natural (value : Nat)
  /-- an integer that is not written as a natural number -/
  | integer (value : Int)
  | pattern (text : String)
deriving DecidableEq

namespace Value

/-- An unsigned integer of 64 bits; a plus sign may stand before it. -/
def natural? (text : String) : Option Nat :=
  let digits := match text.toList with
    | '+' :: ds => ds
    | ds => ds
  let n := Decimal.ofDigits digits
  if digits.isEmpty || !digits.all Decimal.isDigit || Nat.pow 2 64 ≤ n then none else some n

/-- An integer of 64 bits with a minus sign. -/
def negative? (text : String) : Option Int :=
  match text.toList with
  | '-' :: digits =>
    let n := Decimal.ofDigits digits
    if digits.isEmpty || !digits.all Decimal.isDigit || Nat.pow 2 63 < n then none
    else some (-n)
  | _ => none

/-- The value that a text writes: the first kind of value as which it reads, in the order of
truth values, natural numbers, integers, numbers and patterns. -/
def read? (text : String) : Option Value :=
  if text = "true" then some (.truth true)
  else if text = "false" then some (.truth false)
  else match natural? text with
    | some n => some (.natural n)
    | none =>
      match negative? text with
      | some n => some (.integer n)
      | none =>
        match Binary64.read? text with
        | some .nan => some .nan
        | some x => some (.real x)
        | none => if Pattern.isPattern text then some (.pattern text) else none

/-- A value as it is shown: numbers in the shortest way. -/
def text : Value → String
  | .truth b => if b then "true" else "false"
  | .real x => x.positional
  | .nan => Binary64.nan.positional
  | .natural n => String.ofList (Decimal.toDigits n)
  | .integer n =>
    let digits := String.ofList (Decimal.toDigits n.natAbs)
    if n < 0 then "-" ++ digits else digits
  | .pattern text => text

/-- The place of a kind of value among the kinds. -/
def rank : Value → Nat
  | .truth _ => 0
  | .real _ => 1
  | .nan => 2
  | .natural _ => 3
  | .integer _ => 4
  | .pattern _ => 5

/-- The order of values: by kind, and within a kind by value. The two zeros are the same. -/
def order : Value → Value → Ordering
  | .truth a, .truth b => compare a.toNat b.toNat
  | .real a, .real b => (a.compare? b).getD .eq
  | .natural a, .natural b => compare a b
  | .integer a, .integer b => compare a b
  | .pattern a, .pattern b => compare a b
  | a, b => compare a.rank b.rank

end Value

/-- A field of a span and what it must be, if it must be something. -/
structure Field where
  name : String
  value : Option Value
deriving DecidableEq

/-- A directive. -/
structure Directive where
  target : Option String
  span : Option String
  fields : List Field
  level : LogLevel
deriving DecidableEq

namespace Directive

/-- A field as it is shown. -/
def fieldText (f : Field) : String :=
  match f.value with
  | some value => f.name ++ "=" ++ value.text
  | none => f.name

/-- What stands between the brackets of a directive. -/
def bracketText (d : Directive) : String :=
  if d.span.isNone && d.fields.isEmpty then ""
  else
    let fields := if d.fields.isEmpty then ""
      else "\x7b" ++ ",".intercalate (d.fields.map fieldText) ++ "\x7d"
    "[" ++ d.span.getD "" ++ fields ++ "]"

/-- A directive as it is shown. -/
def text (d : Directive) : String :=
  let head := d.target.getD "" ++ d.bracketText
  if d.target.isNone && d.bracketText.isEmpty then d.level.name else head ++ "=" ++ d.level.name

/-! ## Reading -/

/-- Where a reader of a directive stands; starts are positions in the text, counted in bytes. -/
inductive Place where
  | start
  | word (start : Nat)
  | span (start : Nat)
  | field (start : Nat)
  | afterFields
  | afterSpan
  | level (start : Nat)
deriving DecidableEq

/-- Characters that may begin a word. -/
def beginsWord (c : Char) : Bool :=
  c == '-' || c == ':' || c == '_' || Text.isAlphanumeric c

/-- What stands after so many bytes. -/
def dropBytes : Nat → List Char → List Char
  | _, [] => []
  | n, c :: rest => if n = 0 then c :: rest else dropBytes (n - c.utf8Size) rest

/-- The characters that begin within so many bytes. -/
def takeBytes : Nat → List Char → List Char
  | _, [] => []
  | n, c :: rest => if n = 0 then [] else c :: takeBytes (n - c.utf8Size) rest

/-- A part of a text between two positions. -/
def slice (text : List Char) (first last : Nat) : String :=
  String.ofList (takeBytes (last - first) (dropBytes first text))

/-- What stands after a position. -/
def sliceFrom (text : List Char) (first : Nat) : String :=
  String.ofList (dropBytes first text)

/-- A field as it is written; nothing if the text is empty or its value cannot be read. -/
def field? (text : String) : Option Field :=
  if text.isEmpty then none
  else match text.toList.splitOn '=' with
    | name :: value :: _ =>
      (Value.read? (String.ofList value)).map fun value => ⟨String.ofList name, some value⟩
    | [name] => some ⟨String.ofList name, none⟩
    | [] => none

/-- One more character at a position. -/
def step (text : List Char) (d : Directive) (p : Place) (i : Nat) (c : Char) :
    Option (Directive × Place) :=
  match p with
  | .start =>
    if c = '[' then some (d, .span (i + 1))
    else if beginsWord c then some (d, .word i)
    else none
  | .word first =>
    if c = '=' then some ({ d with target := some (slice text first i) }, .level (i + 1))
    else if c = '[' then some ({ d with target := some (slice text first i) }, .span (i + 1))
    else some (d, p)
  | .span first =>
    if c = ']' then some ({ d with span := some (slice text first i) }, .afterSpan)
    else if c = '\x7b' then
      let name := slice text first i
      some ({ d with span := if name.isEmpty then none else some name }, .field (i + 1))
    else some (d, p)
  | .field first =>
    if c = '\x7d' then do
      let f ← field? (slice text first i)
      return ({ d with fields := d.fields ++ [f] }, .afterFields)
    else some (d, p)
  | .afterFields => if c = ']' then some (d, .afterSpan) else none
  | .afterSpan => if c = '=' then some (d, .level (i + 1)) else none
  | .level _ => some (d, p)

/-- The end of a directive. -/
def finish (text : List Char) (d : Directive) : Place → Option Directive
  | .word first =>
    let word := sliceFrom text first
    match LogLevel.ofText? word with
    | some level => some { d with level }
    | none => some { d with target := some word }
  | .level first =>
    let word := sliceFrom text first
    if word.isEmpty then some d
    else (LogLevel.ofText? word).map fun level => { d with level }
  | .afterSpan => some d
  | _ => none

/-- Steps through characters from a position on. -/
def run (text : List Char) (d : Directive) (p : Place) (i : Nat) : List Char → Option Directive
  | [] => finish text d p
  | c :: rest =>
    match step text d p i c with
    | some (d, p) => run text d p (i + c.utf8Size) rest
    | none => none

/-- The directive that a text writes. The characters that are looked at are those without the
blanks at both ends; what they delimit is cut, at the same positions, from the text as it
stands. -/
def read? (text : List Char) : Option Directive :=
  let trimmed := (Text.dropBlank (Text.dropBlank text).reverse).reverse
  run text ⟨none, none, [], .trace⟩ .start 0 trimmed

/-! ## Order -/

/-- Whether a directive looks at spans or their fields. -/
def isDynamic (d : Directive) : Bool := d.span.isSome || !d.fields.isEmpty

/-- The directive as far as it can be told without looking at spans or values. -/
def static? (d : Directive) : Option Directive :=
  if d.span.isSome || d.fields.any (·.value.isSome) then none else some d

/-- The order of two options; nothing comes first. -/
def compareOption {α : Type} (f : α → α → Ordering) : Option α → Option α → Ordering
  | none, none => .eq
  | none, some _ => .lt
  | some _, none => .gt
  | some a, some b => f a b

/-- The order of two fields: without a value before with one, then by name and value. -/
def compareField (a b : Field) : Ordering :=
  (compare a.value.isSome.toNat b.value.isSome.toNat).then
    ((compare a.name b.name).then (compareOption Value.order a.value b.value))

/-- The order of two lists of fields. -/
def compareFields : List Field → List Field → Ordering
  | [], [] => .eq
  | [], _ :: _ => .lt
  | _ :: _, [] => .gt
  | a :: as, b :: bs => (compareField a b).then (compareFields as bs)

/-- How special a directive is: by the length of its target, then a span, then the number of
fields; at last by what they are. -/
def compareSpecial (a b : Directive) : Ordering :=
  let size (s : String) : Nat := s.utf8ByteSize
  (compareOption compare (a.target.map size) (b.target.map size)).then
    ((compare a.span.isSome.toNat b.span.isSome.toNat).then
      ((compare a.fields.length b.fields.length).then
        ((compareOption compare a.target b.target).then
          ((compareOption compare a.span b.span).then (compareFields a.fields b.fields)))))

/-- Puts a directive in its place among directives, the most special first. -/
def insert (d : Directive) : List Directive → List Directive
  | [] => [d]
  | e :: rest =>
    match compareSpecial d e with
    | .eq => d :: rest
    | .gt => d :: e :: rest
    | .lt => e :: insert d rest

end Directive

end LogFilter

/-- A filter: directives that need not look at spans, and those that do. -/
structure LogFilter where
  static : List LogFilter.Directive
  dynamic : List LogFilter.Directive
deriving DecidableEq

namespace LogFilter

/-- The filter of directives. -/
def ofDirectives (directives : List Directive) : LogFilter :=
  let sort (ds : List Directive) : List Directive := ds.foldl (fun sorted d => d.insert sorted) []
  let dynamic := directives.filter (·.isDynamic)
  let static := directives.filter (!·.isDynamic)
  if directives.isEmpty then ⟨[⟨none, none, [], .off⟩], []⟩
  else ⟨sort ((static ++ dynamic).filterMap (·.static?)), sort dynamic⟩

/-- The filter that a text writes. -/
def read? (text : String) : Option LogFilter := do
  let pieces := (text.toList.splitOn ',').filter (!·.isEmpty)
  return ofDirectives (← pieces.mapM Directive.read?)

/-- A filter as it is shown. -/
def text (f : LogFilter) : String := ",".intercalate ((f.static ++ f.dynamic).map (·.text))

/-- The filter for `info` and above. -/
def fallback : LogFilter := ⟨[⟨none, none, [], .info⟩], []⟩

/-- The filter of a process: the one that the environment asks for, else that of the
configuration; one that cannot be read is passed over. -/
def choose (level : String) (environment : Option String) : LogFilter :=
  ((environment.bind read?).orElse fun _ => read? level).getD fallback

end LogFilter

end Rulebook
