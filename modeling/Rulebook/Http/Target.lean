/-!
# Request targets

The target of a request is a path with a query, the whole address of one, the name of a host
alone, or a star. Only the path matters to the service, and it is kept as it was written. A target
with a character that none of these forms allows is no target.
-/

namespace Rulebook.Http.Target

/-- The most bytes that a target may have. -/
def maxSize : Nat := 65534

/-- Characters that may stand in a path. Beyond those that need no escape, quotes and braces are
let through, and so is everything outside ASCII. -/
def inPath (c : Char) : Bool :=
  let n := c.toNat
  n == 0x21 || (0x24 ≤ n && n ≤ 0x3B) || n == 0x3D || (0x40 ≤ n && n ≤ 0x5F) ||
    (0x61 ≤ n && n ≤ 0x7E) || n == 0x22 || 0x80 ≤ n

/-- Characters that may stand in a query. -/
def inQuery (c : Char) : Bool :=
  let n := c.toNat
  n == 0x21 || (0x24 ≤ n && n ≤ 0x3B) || n == 0x3D || (0x3F ≤ n && n != 0x7F)

/-- What stands before a fragment. -/
def dropFragment (cs : List Char) : List Char := cs.takeWhile (· != '#')

/-- The path of a path with a query. -/
def path? (cs : List Char) : Option (List Char) :=
  let cs := dropFragment cs
  let path := cs.takeWhile (· != '?')
  let query := (cs.dropWhile (· != '?')).drop 1
  if path.all inPath && query.all inQuery then some path else none

/-! ## Whole addresses -/

/-- Letters and digits of ASCII. -/
def isAlphanum (c : Char) : Bool :=
  ('0' ≤ c && c ≤ '9') || ('a' ≤ c && c ≤ 'z') || ('A' ≤ c && c ≤ 'Z')

/-- Characters of a scheme. -/
def inScheme (c : Char) : Bool :=
  isAlphanum c || c == '+' || c == '-' || c == '.' || c == '~'

/-- Characters that may stand in the name of a host and what belongs to it. -/
def inAuthority (c : Char) : Bool :=
  isAlphanum c || "-._~:[]@!$&'()*+,;=%".toList.contains c

/-- The name of a host that is being read: colons since the last `@` or `]`, brackets that were
opened and closed, and whether a percent sign stands outside the name of a user. -/
structure Host where
  colons : Nat := 0
  opened : Bool := false
  closed : Bool := false
  percent : Bool := false
  atEnd : Bool := false

/-- One more character of the name of a host. -/
def Host.step (h : Host) (c : Char) : Option Host :=
  let h := { h with atEnd := false }
  if c = ':' then if 8 ≤ h.colons then none else some { h with colons := h.colons + 1 }
  else if c = '[' then if h.percent || h.opened then none else some { h with opened := true }
  else if c = ']' then
    if !h.opened || h.closed then none
    else some { h with closed := true, colons := 0, percent := false }
  else if c = '@' then some { h with atEnd := true, colons := 0, percent := false }
  else if c = '%' then some { h with percent := true }
  else if inAuthority c then some h
  else none

/-- Whether the name of a host may end here. -/
def Host.complete (h : Host) : Bool :=
  h.opened == h.closed && h.colons ≤ 1 && !h.atEnd && !h.percent

/-- Whether characters are the name of a host. -/
def isHost (cs : List Char) : Bool :=
  match cs.foldlM Host.step {} with
  | some h => h.complete
  | none => false

/-- What follows `://` after a scheme. -/
def afterScheme? (cs : List Char) : Option (List Char) :=
  let scheme := cs.takeWhile inScheme
  match cs.dropWhile inScheme with
  | ':' :: '/' :: '/' :: rest => if scheme.length ≤ 64 then some rest else none
  | _ => none

/-- The path of a target in any form. The path of an address without one is the root; the name of
a host alone has no path at all. -/
def read? (target : String) : Option String :=
  let cs := target.toList
  if maxSize < target.utf8ByteSize then none
  else match cs with
    | [] => none
    | '/' :: _ => (path? cs).map String.ofList
    | ['*'] => some "*"
    | _ =>
      match afterScheme? cs with
      | some rest =>
        let endsHost (c : Char) : Bool := c == '/' || c == '?' || c == '#'
        let host := rest.takeWhile fun c => !endsHost c
        if host.isEmpty || !isHost host then none
        else (path? (rest.dropWhile fun c => !endsHost c)).map fun path =>
          if path.isEmpty then "/" else String.ofList path
      | none => if isHost cs then some "" else none

end Rulebook.Http.Target
