/-!
# Media types

The type of a body is written as a main type, a slash, a subtype and parameters. A body is a
document if its type is `application/json`, or `application` with a subtype that ends in `+json`.
A type that breaks the grammar anywhere, its parameters included, is not taken for either.
-/

namespace Rulebook.Http.MediaType

/-- Characters of names and of values without quotes. -/
def isToken (c : Char) : Bool :=
  ('0' ≤ c && c ≤ '9') || ('a' ≤ c && c ≤ 'z') || ('A' ≤ c && c ≤ 'Z') ||
    "!#$%&'*+-.^_`|~".toList.contains c

/-- Characters between quotes. A backslash is one like the others and escapes nothing. -/
def isQuoted (c : Char) : Bool := 31 < c.toNat && c.toNat != 127

/-- Where a reader of parameters stands. -/
inductive Place where
  /-- before a name -/
  | start
  /-- inside a name -/
  | name
  /-- before a value -/
  | beforeValue
  /-- inside a value without quotes -/
  | value
  /-- inside quotes; the flag holds once a character has been read there -/
  | quoted (nonempty : Bool)
  /-- after the closing quote -/
  | afterQuote
deriving DecidableEq

/-- One more character of the parameters. -/
def Place.step (p : Place) (c : Char) : Option Place :=
  match p with
  | .start => if c = ' ' then some .start else if isToken c then some .name else none
  | .name => if c = '=' then some .beforeValue else if isToken c then some .name else none
  | .beforeValue =>
    if c = '"' then some (.quoted false) else if isToken c then some .value else none
  | .value => if c = ';' then some .start else if isToken c then some .value else none
  | .quoted nonempty =>
    if c = '"' && nonempty then some .afterQuote
    else if isQuoted c then some (.quoted true)
    else none
  | .afterQuote =>
    if c = ';' then some .start else if c = ' ' then some .afterQuote else none

/-- Whether the parameters may end here. -/
def Place.complete : Place → Bool
  | .start | .value | .afterQuote | .beforeValue => true
  | .name | .quoted _ => false

/-- Whether characters after the first semicolon are parameters. -/
def areParameters (cs : List Char) : Bool :=
  match cs.foldlM Place.step .start with
  | some p => p.complete
  | none => false

/-- The part after the last plus sign, if something stands before it. -/
def suffix? (subtype : List Char) : Option (List Char) :=
  let suffix := (subtype.reverse.takeWhile (· != '+')).reverse
  if suffix.length + 1 < subtype.length then some suffix else none

/-- The part before the last plus sign, or all. -/
def stem (subtype : List Char) : List Char :=
  match suffix? subtype with
  | some suffix => subtype.take (subtype.length - suffix.length - 1)
  | none => subtype

/-- Whether a media type is one of documents. -/
def isJson (text : String) : Bool :=
  let cs := text.toList
  let main := cs.takeWhile (· != '/')
  let rest := (cs.dropWhile (· != '/')).drop 1
  let subtype := rest.takeWhile (· != ';')
  let parameters := (rest.dropWhile (· != ';')).drop 1
  main.map Char.toLower == "application".toList && cs.contains '/' &&
    !subtype.isEmpty && subtype.all isToken && areParameters parameters &&
    ((stem subtype).map Char.toLower == "json".toList ||
      (suffix? subtype).map (·.map Char.toLower) == some "json".toList)

end Rulebook.Http.MediaType
