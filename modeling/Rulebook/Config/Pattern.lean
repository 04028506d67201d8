import Rulebook.Text.Alphanumeric
import Rulebook.Text.Blank
import Rulebook.Text.Hex

/-!
# Patterns

In a filter the value of a field may be a pattern, a regular expression of the common kind:
alternatives between bars, groups in parentheses, classes of characters in brackets, repetition by
`?`, `*` and `+`, and escapes after a backslash. Whether a filter can be read hangs on whether its
patterns are well formed, and that is all that is asked here.

Patterns know no property of characters outside ASCII. Whatever needs one is refused: classes such
as `\d` and `\pL`, edges of words, and letters whose case does not matter. Switching to ASCII by
`(?-u)` allows them, but refuses in turn whatever could match a part of a character outside ASCII.
A count between braces cannot be written, because the brace that closes it ends the fields of the
filter first.
-/

namespace Rulebook.Pattern

/-- What holds at a place of a pattern. -/
structure Mode where
  /-- case does not matter -/
  anyCase : Bool := false
  /-- blanks and comments between the parts stand for nothing -/
  spaced : Bool := false
  /-- characters are those of Unicode -/
  unicode : Bool := true

/-- Whether a character can be matched: case outside ASCII is not known. -/
def Mode.foldable (m : Mode) : Bool := !(m.unicode && m.anyCase)

/-! ## Blanks -/

/-- Drops blanks and comments; the flag holds inside a comment. -/
def dropComments : Bool → List Char → List Char
  | _, [] => []
  | true, c :: rest => dropComments (c != '\n') rest
  | false, c :: rest =>
    if Text.isBlank c then dropComments false rest
    else if c = '#' then dropComments true rest
    else c :: rest

/-- Drops what stands for nothing. -/
def Mode.skip (m : Mode) (cs : List Char) : List Char :=
  if m.spaced then dropComments false cs else cs

/-! ## Escapes -/

/-- A part that an escape writes. -/
inductive Part where
  | char (c : Char)
  | set
  /-- a place between characters -/
  | edge

/-- The number that so many hexadecimal digits write, after the digits read so far. -/
def hexDigits (m : Mode) : Nat → Nat → List Char → Option (Nat × List Char)
  | 0, n, cs => some (n, cs)
  | count + 1, n, cs =>
    match m.skip cs with
    | [] => none
    | c :: rest => do hexDigits m count (16 * n + (← Text.hexDigit? c)) rest

/-- The character with a code point of so many hexadecimal digits. -/
def codePoint (m : Mode) (count : Nat) (cs : List Char) : Option (Part × List Char) := do
  let (n, rest) ← hexDigits m count 0 cs
  if n.isValidChar then some (.char (Char.ofNat n), rest) else none

/-- Whether a character stands for itself after a backslash: what is neither a letter nor a digit
of ASCII, nor a bracket that marks the edge of a word. -/
def standsForItself (c : Char) : Bool :=
  c.toNat < 0x80 && !c.isAlphanum && c != '<' && c != '>'

/-- What follows a backslash. -/
def escape (m : Mode) : List Char → Option (Part × List Char)
  | [] => none
  | c :: rest =>
    if standsForItself c then some (.char c, rest)
    else if c = 'x' then codePoint m 2 rest
    else if c = 'u' then codePoint m 4 rest
    else if c = 'U' then codePoint m 8 rest
    else if c = 'a' then some (.char '\x07', rest)
    else if c = 'f' then some (.char '\x0c', rest)
    else if c = 't' then some (.char '\t', rest)
    else if c = 'n' then some (.char '\n', rest)
    else if c = 'r' then some (.char '\r', rest)
    else if c = 'v' then some (.char '\x0b', rest)
    else if c = 'A' ∨ c = 'z' then some (.edge, rest)
    else if m.unicode then none
    else if c = 'd' ∨ c = 's' ∨ c = 'w' then some (.set, rest)
    else if c = 'b' ∨ c = 'B' ∨ c = '<' ∨ c = '>' then some (.edge, rest)
    else none

/-! ## Classes -/

/-- The names of classes of ASCII. -/
def classNames : List String :=
  ["alnum", "alpha", "ascii", "blank", "cntrl", "digit", "graph", "lower", "print", "punct",
   "space", "upper", "word", "xdigit"]

/-- What follows the name of a class inside a class, after its first bracket: the name stands
between colons, after a `^` if the class is to be turned round. -/
def named? (cs : List Char) : Option (Bool × List Char) :=
  match cs with
  | ':' :: rest =>
    let (negated, rest) := match rest with
      | '^' :: rest => (true, rest)
      | rest => (false, rest)
    let name := rest.takeWhile (· != ':')
    match rest.drop name.length with
    | ':' :: ']' :: after =>
      if classNames.contains (String.ofList name) then some (negated, after) else none
    | _ => none
  | _ => none

/-- A member of a class. -/
def member (m : Mode) : List Char → Option (Part × List Char)
  | [] => none
  | '\\' :: rest => escape m rest
  | c :: rest => some (.char c, rest)

/-- Whether a part can be a member of a class. -/
def Part.isMember (m : Mode) : Part → Bool
  | .char c => m.unicode || c.toNat < 0x80
  | .set => true
  | .edge => false

/-- A member of a class or a range of members, from a character to one that is not before it. -/
def range (m : Mode) (cs : List Char) : Option (List Char) := do
  let (first, rest) ← member m cs
  let rest := m.skip rest
  let single := if first.isMember m then some rest else none
  match rest with
  | [] => none
  | '-' :: after =>
    match m.skip after with
    | '-' :: _ | ']' :: _ => single
    | after =>
      match first, ← member m after with
      | .char a, (.char b, after) =>
        if a ≤ b && first.isMember m && (Part.char b).isMember m then some after else none
      | _, _ => none
  | _ => single

/-- The start of a class after its bracket: a `^`, hyphens, and, where there are no hyphens, a
closing bracket that stands for itself. -/
def openClass (m : Mode) (cs : List Char) : Option (List Char) := do
  let cs ← match m.skip cs with
    | '^' :: rest => if m.unicode then some (m.skip rest) else none
    | cs => some cs
  let isHyphen (c : Char) : Bool := c == '-' || (m.spaced && Text.isBlank c)
  let hyphens := cs.takeWhile isHyphen
  match m.skip (cs.drop hyphens.length) with
  | ']' :: rest => return if hyphens.isEmpty then rest else ']' :: rest
  | rest => return rest

/-- What follows a class. Inside one, further classes may be opened, and `&&`, `--` and `~~`
combine what stands before and after them. The first argument bounds the number of parts, the
second counts the classes that are open. -/
def classEnd (m : Mode) : Nat → Nat → List Char → Option (List Char)
  | 0, _, _ => none
  | fuel + 1, depth, cs =>
    match m.skip cs with
    | [] => none
    | '[' :: rest =>
      match named? rest with
      | some (negated, rest) => if negated && !m.unicode then none else classEnd m fuel depth rest
      | none => do classEnd m fuel (depth + 1) (← openClass m rest)
    | ']' :: rest => if depth ≤ 1 then some rest else classEnd m fuel (depth - 1) rest
    | '&' :: '&' :: rest | '-' :: '-' :: rest | '~' :: '~' :: rest => classEnd m fuel depth rest
    | cs => do classEnd m fuel depth (← range m cs)

/-! ## Groups -/

/-- Sets what a letter between `(?` and the end of its list says. -/
def Mode.set (m : Mode) (letter : Char) (value : Bool) : Mode :=
  if letter = 'i' then { m with anyCase := value }
  else if letter = 'x' then { m with spaced := value }
  else if letter = 'u' then { m with unicode := value }
  else m

/-- Reads letters up to a colon or a closing parenthesis; those after a hyphen are switched off.
No letter and no hyphen stands twice, and after a hyphen stands a letter. -/
def readLetters (m : Mode) (negated dangling : Bool) (seen : List Char) :
    List Char → Option (Mode × Char × List Char)
  | [] => none
  | c :: rest =>
    if c = ':' then if dangling then none else some (m, c, rest)
    else if c = ')' then if dangling || seen.isEmpty then none else some (m, c, rest)
    else if c = '-' then if negated then none else readLetters m true true seen rest
    else if "imsUuRx".toList.contains c && !seen.contains c then
      readLetters (m.set c (!negated)) negated false (c :: seen) rest
    else none

/-- Where a reader of a pattern stands. -/
structure Place where
  mode : Mode := {}
  /-- what holds again at the end of each group that is open -/
  outer : List Mode := []
  /-- something stands before that can be repeated -/
  repeatable : Bool := false
  /-- the names of groups -/
  names : List (List Char) := []

/-- The start of a group inside, where `mode` holds. -/
def Place.enter (p : Place) (mode : Mode) : Place :=
  { p with mode, outer := p.mode :: p.outer, repeatable := false }

/-- A group with a name, after the opening of the name. -/
def nameGroup (p : Place) (cs : List Char) : Option (Place × List Char) :=
  let name := cs.takeWhile (· != '>')
  let inName (c : Char) : Bool :=
    c == '_' || c == '.' || c == '[' || c == ']' || Text.isAlphanumeric c
  match name, cs.drop name.length with
  | first :: others, '>' :: rest =>
    if (first == '_' || Text.isAlphabetic first) && others.all inName && !p.names.contains name then
      some ({ p.enter p.mode with names := name :: p.names }, rest)
    else none
  | _, _ => none

/-- What stands after an opening parenthesis: a group, with a name or with letters of its own, or
letters that hold up to the end of the group around. -/
def openGroup (p : Place) (cs : List Char) : Option (Place × List Char) :=
  match p.mode.skip cs with
  | '?' :: '=' :: _ | '?' :: '!' :: _ | '?' :: '<' :: '=' :: _ | '?' :: '<' :: '!' :: _ => none
  | '?' :: 'P' :: '<' :: rest | '?' :: '<' :: rest => nameGroup p rest
  | '?' :: rest => do
    let (mode, last, rest) ← readLetters p.mode false false [] rest
    if last = ')' then return ({ p with mode, repeatable := false }, rest)
    else return (p.enter mode, rest)
  | rest => some (p.enter p.mode, rest)

/-! ## The whole pattern -/

/-- One more part of a pattern. -/
def step (p : Place) (c : Char) (rest : List Char) : Option (Place × List Char) :=
  let one : Place := { p with repeatable := true }
  if c = '(' then openGroup p rest
  else if c = ')' then
    match p.outer with
    | [] => none
    | mode :: outer => some ({ one with mode, outer }, rest)
  else if c = '|' then some ({ p with repeatable := false }, rest)
  else if c = '[' then
    if p.mode.foldable then do
      return (one, ← classEnd p.mode (rest.length + 1) 1 (← openClass p.mode rest))
    else none
  else if c = '?' ∨ c = '*' ∨ c = '+' then
    if p.repeatable then
      match rest with
      | '?' :: rest => some (one, rest)
      | rest => some (one, rest)
    else none
  else if c = '\x7b' then none
  else if c = '.' then if p.mode.unicode then some (one, rest) else none
  else if c = '^' ∨ c = '$' then some (one, rest)
  else if c = '\\' then
    match escape p.mode rest with
    | some (.char _, rest) => if p.mode.foldable then some (one, rest) else none
    | some (_, rest) => some (one, rest)
    | none => none
  else if p.mode.foldable then some (one, rest)
  else none

/-- Reads parts up to the end. The first argument bounds their number. -/
def readParts : Nat → Place → List Char → Bool
  | 0, _, _ => false
  | fuel + 1, p, cs =>
    match p.mode.skip cs with
    | [] => p.outer.isEmpty
    | c :: rest =>
      match step p c rest with
      | some (p, rest) => readParts fuel p rest
      | none => false

/-- Whether a text is a pattern. -/
def isPattern (text : String) : Bool := readParts (text.length + 1) {} text.toList

end Rulebook.Pattern
