import Rulebook.Binary64.Shortest

/-!
# Settings as they are given

Files and environment variables give settings as trees of values. Trees are laid over each other:
a table is merged into what stands in its place, entry by entry, and any other value takes the
place. What a setting needs is then read from the value that is there with some leniency: numbers
and truth values may be written as texts, and the other way round.
-/

namespace Rulebook

/-- A value as a file or a variable gives it. -/
inductive Setting where
  /-- a place without a value -/
  | absent
  | bool (value : Bool)
  | int (value : Int)
  | real (value : Binary64)
  | text (value : String)
  | list (items : List Setting)
  | table (entries : List (String × Setting))
deriving BEq, Inhabited

namespace Setting

/-! ## Laying over -/

/-- Changes the value of an entry, or adds one. -/
def alter (key : String) (f : Setting → Setting) :
    List (String × Setting) → List (String × Setting)
  | [] => [(key, f .absent)]
  | (k, v) :: rest => if k = key then (k, f v) :: rest else (k, v) :: alter key f rest

/-- Changes the value of an entry; what is no table becomes one with that entry alone. -/
def modify (key : String) (f : Setting → Setting) : Setting → Setting
  | .table entries => .table (alter key f entries)
  | _ => .table [(key, f .absent)]

/-- What a table is laid over: another table as it is, and nothing in the place of any other
value. -/
def ground : Setting → Setting
  | .table entries => .table entries
  | _ => .table []

mutual

/-- Lays a value over what stands in its place. -/
def covering : Setting → Setting → Setting
  | .table entries, place => entriesCovering entries place.ground
  | value, _ => value

/-- Lays entries over what stands in the place of their table. -/
def entriesCovering : List (String × Setting) → Setting → Setting
  | [], place => place
  | (key, value) :: rest, place => entriesCovering rest (modify key value.covering place)

end

/-- One step of a path into a tree. -/
inductive Step where
  | key (name : String)
  | index (n : Int)
deriving DecidableEq

/-- Changes one item of a list. An index past the end makes the list longer, and one before the
start, counted from the end, adds items there. -/
def modifyIndex (n : Int) (f : Setting → Setting) (items : List Setting) : List Setting :=
  if 0 ≤ n then
    let i := n.toNat
    let items := items ++ List.replicate (i + 1 - items.length) .absent
    items.modify i f
  else if n.natAbs ≤ items.length then items.modify (items.length - n.natAbs) f
  else (List.replicate (n.natAbs - items.length) Setting.absent ++ items).modify 0 f

/-- Changes what stands at the end of a path, making the places on the way. -/
def modifyPath (f : Setting → Setting) : List Step → Setting → Setting
  | [], place => f place
  | .key name :: rest, place => place.modify name (modifyPath f rest)
  | .index n :: rest, place =>
    match place with
    | .list items => .list (modifyIndex n (modifyPath f rest) items)
    | _ => .list (modifyIndex n (modifyPath f rest) [])

/-! ## Paths in keys -/

/-- Characters of the names in a path. -/
def inName (c : Char) : Bool :=
  ('a' ≤ c && c ≤ 'z') || ('A' ≤ c && c ≤ 'Z') || ('0' ≤ c && c ≤ '9') || c == '_' || c == '-'

/-- The steps that follow the first name of a path. Blanks may stand around an index, which is an
integer of 64 bits. The first argument bounds the number of steps. -/
def readSteps : Nat → List Char → Option (List Step)
  | _, [] => some []
  | 0, _ => none
  | fuel + 1, '.' :: rest =>
    let name := rest.takeWhile inName
    if name.isEmpty then none
    else (readSteps fuel (rest.dropWhile inName)).map (.key (String.ofList name) :: ·)
  | fuel + 1, '[' :: rest =>
    let isBlank (c : Char) : Bool := c == ' ' || c == '\t'
    let (negative, rest) : Bool × List Char := match rest.dropWhile isBlank with
      | '-' :: rest => (true, rest)
      | rest => (false, rest)
    let digits := rest.takeWhile Decimal.isDigit
    match (rest.drop digits.length).dropWhile isBlank with
    | ']' :: after =>
      let n : Int := if negative then -(Decimal.ofDigits digits : Int) else Decimal.ofDigits digits
      if digits.isEmpty || n < -(Nat.pow 2 63 : Int) || (Nat.pow 2 63 : Int) ≤ n then none
      else (readSteps fuel after).map (.index n :: ·)
    | _ => none
  | _ + 1, _ :: _ => none

/-- The path that a key writes, names between dots and indices between brackets; a key that writes
none is a name itself. -/
def pathOf (key : String) : List Step :=
  let cs := key.toList
  let name := cs.takeWhile inName
  let steps := if name.isEmpty then none else readSteps cs.length (cs.dropWhile inName)
  match steps with
  | some steps => .key (String.ofList name) :: steps
  | none => [.key key]

/-- Lays the entries of a source over a tree; the keys of the source are paths. -/
def layOver (tree : Setting) (entries : List (String × Setting)) : Setting :=
  entries.foldl (fun tree entry => modifyPath entry.2.covering (pathOf entry.1) tree) tree

/-! ## Reading values -/

/-- A word in lower case. -/
def lower (s : String) : String := String.ofList (s.toList.map Char.toLower)

/-- The digits of a number, after a plus sign if there is one. -/
def digits? (s : String) : Option Nat :=
  let digits := match s.toList with
    | '+' :: ds => ds
    | ds => ds
  if digits.isEmpty || !digits.all Decimal.isDigit then none else some (Decimal.ofDigits digits)

/-- The digits of a number after a sign if there is one, within 64 bits. -/
def integer? (s : String) : Option Int :=
  match s.toList with
  | '-' :: ds =>
    if ds.isEmpty || !ds.all Decimal.isDigit then none
    else
      let n := Decimal.ofDigits ds
      if n ≤ Nat.pow 2 63 then some (-n) else none
  | _ => (digits? s).bind fun n => if n < Nat.pow 2 63 then some (n : Int) else none

/-- The nearest integer, a half away from zero, kept between zero and the largest of 64 bits. -/
def nearestNat : Binary64 → Nat
  | .finite false m =>
    let one := Magnitude.unitsInOne
    min ((2 * m.units + one) / (2 * one)) (Nat.pow 2 64 - 1)
  | .infinite false => Nat.pow 2 64 - 1
  | _ => 0

/-- A truth value as a text. -/
def truth (value : Bool) : String := if value then "true" else "false"

/-- A setting that is a text; numbers and truth values are written out. -/
def asText? : Setting → Option String
  | .text s => some s
  | .bool b => some (truth b)
  | .int n =>
    let digits := String.ofList (Decimal.toDigits n.natAbs)
    some (if n < 0 then "-" ++ digits else digits)
  | .real x => some x.positional
  | _ => none

/-- A setting that is a natural number of 64 bits. -/
def asNat? : Setting → Option Nat
  | .int n => if 0 ≤ n then some n.toNat else none
  | .text s =>
    let word := lower s
    if word = "true" ∨ word = "on" ∨ word = "yes" then some 1
    else if word = "false" ∨ word = "off" ∨ word = "no" then some 0
    else (digits? s).bind fun n => if n < Nat.pow 2 64 then some n else none
  | .bool b => some (if b then 1 else 0)
  | .real x => some (nearestNat x)
  | _ => none

/-- A setting that is a natural number below a bound. -/
def asNatBelow? (bound : Nat) (s : Setting) : Option Nat :=
  s.asNat?.bind fun n => if n < bound then some n else none

/-- A setting that is a truth value. -/
def asBool? : Setting → Option Bool
  | .bool b => some b
  | .int n => some (n != 0)
  | .real x => some (!x.same .zero)
  | .text s =>
    let word := lower s
    if word = "1" ∨ word = "true" ∨ word = "on" ∨ word = "yes" then some true
    else if word = "0" ∨ word = "false" ∨ word = "off" ∨ word = "no" then some false
    else none
  | _ => none

/-- A setting that is a list of texts. -/
def asTexts? : Setting → Option (List String)
  | .list items => items.mapM asText?
  | _ => none

/-- Whether a value can be a section: a table, or a list of the settings in order. -/
def isSection : Setting → Bool
  | .table _ | .list _ => true
  | _ => false

/-- A part of a section, by name in a table and by position in a list. -/
def part? (position : Nat) (name : String) : Setting → Option Setting
  | .table entries => entries.lookup name
  | .list items => items[position]?
  | _ => none

/-- A value that may be missing: the default if it is, and nothing if it cannot be read. -/
def orDefault {α : Type} (default : α) (read : Setting → Option α) : Option Setting → Option α
  | none => some default
  | some value => read value

end Setting

end Rulebook
