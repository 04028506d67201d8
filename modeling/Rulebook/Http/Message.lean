import Rulebook.Http.Target

/-!
# Requests and responses

A request has a method, a path, headers and a body, which is any bytes; one whose other parts are
not written as the protocol wants cannot be made. A response has a status, the few headers that the
service sets, and a body.
-/

namespace Rulebook.Http

/-- A request. -/
structure Request where
  method : String
  /-- the path as it was written -/
  path : String
  /-- names in lower case, and values -/
  headers : List (String × String)
  body : ByteArray

namespace Request

/-- Characters of a method. -/
def inMethod (c : Char) : Bool :=
  Target.isAlphanum c || "!#$%&'*+-.^_`|~".toList.contains c

/-- Whether a text may be the value of a header: it has no controls but tabs. -/
def isHeaderValue (text : String) : Bool :=
  text.toList.all fun c => c == '\t' || (32 ≤ c.toNat && c.toNat != 127)

/-- Whether the value of a header is plain text: nothing but visible ASCII, spaces and tabs. -/
def isPlain (text : String) : Bool :=
  text.toList.all fun c => c == '\t' || (32 ≤ c.toNat && c.toNat < 127)

/-- The request with the given parts and a text for its body, if they are written as they must
be. -/
def make? (method target : String) (headers : List (String × String)) (body : String) :
    Option Request :=
  if method.isEmpty || !method.toList.all inMethod then none
  else match Target.read? target with
    | none => none
    | some path =>
      if headers.all fun h => isHeaderValue h.2 then some ⟨method, path, headers, body.toUTF8⟩
      else none

/-- The value of a header, if it is there and plain. -/
def header? (r : Request) (name : String) : Option String :=
  match r.headers.lookup name with
  | some value => if isPlain value then some value else none
  | none => none

end Request

/-- A response. -/
structure Response where
  status : Nat
  contentType : Option String := none
  allow : Option String := none
  requestId : Option String := none
  body : String := ""
deriving DecidableEq

namespace Response

/-- A response of plain text. -/
def text (status : Nat) (body : String) : Response :=
  { status, contentType := some "text/plain; charset=utf-8", body }

/-- A response to a path that is not there. -/
def notFound : Response := { status := 404 }

/-- A response to a method that a path does not take. -/
def notAllowed (allow : String) : Response := { status := 405, allow := some allow }

/-- The response without its body. -/
def bare (r : Response) : Response := { r with body := "" }

end Response

end Rulebook.Http
