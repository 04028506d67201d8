import Rulebook.Http.MediaType
import Rulebook.Http.Message
import Rulebook.Json.Form

/-!
# Bodies of requests

A body is read as one of four structures, and the first thing in its text that cannot be used
decides how the request is refused: 400 for a mistake in the text, 422 for a value of the wrong
kind. Bytes that are no text are such a mistake unless they stand in a text that is skipped. A body
whose media type is not one of documents is refused unread with 415, and one that is too large with
413.
-/

namespace Rulebook.Http

namespace Body

/-- The response to a body that cannot be read. -/
def refusal : Unreadable → Response
  | .failure _ => .text 400 "Failed to parse the request body as JSON"
  | .fault _ => .text 422 "Failed to deserialize the JSON body into the target type"

/-- The response to a body that is not a document. -/
def unsupported : Response :=
  .text 415 "Expected request with `Content-Type: application/json`"

/-- The most bytes that a body may have. -/
def maxSize : Nat := 2 * 1024 * 1024

/-- The response to a body with more bytes. -/
def tooLarge : Response := .text 413 "Failed to buffer the request body"

/-- Reads the body of a request as a structure. -/
def ofRequest {α : Type} (form : Form α) (start : α) (r : Request) :
    Except Response α :=
  match r.header? "content-type" with
  | some type =>
    if !MediaType.isJson type then .error unsupported
    else if maxSize < r.body.size then .error tooLarge
    else (form.readSymbols start (Text.decode r.body)).mapError refusal
  | none => .error unsupported

end Body

/-! ## The four structures -/

/-- A rule to keep. -/
structure CreateRequest where
  rule : String

/-- Rules to combine. -/
structure CombineRequest where
  rules : List String

/-- A rule that is kept, to evaluate on a record. -/
structure EvaluateRequest where
  id : String
  data : Json

/-- A rule that is given, to evaluate on a record. -/
structure EvaluateTreeRequest where
  tree : Json
  data : Json

/-- The form of a rule to keep. -/
def CreateRequest.form : Form CreateRequest where
  name := "struct CreateRuleRequest"
  fields :=
    [⟨"rule_string", fun s q => do return { q with rule := ← s.single Json.asText }, true⟩]

/-- The form of rules to combine. -/
def CombineRequest.form : Form CombineRequest where
  name := "struct CombineRulesRequest"
  fields := [⟨"rule_strings", fun s q => do return { q with rules := ← s.readTexts }, true⟩]

/-- The form of a kept rule and a record. -/
def EvaluateRequest.form : Form EvaluateRequest where
  name := "struct EvaluateRuleRequest"
  fields :=
    [⟨"rule_id", fun s q => do return { q with id := ← s.single Json.asText }, true⟩,
     ⟨"data", fun s q => do return { q with data := ← s.readAny }, true⟩]

/-- The form of a given rule and a record. -/
def EvaluateTreeRequest.form : Form EvaluateTreeRequest where
  name := "struct EvaluateAstRequest"
  fields :=
    [⟨"ast", fun s q => do return { q with tree := ← s.readAny }, true⟩,
     ⟨"data", fun s q => do return { q with data := ← s.readAny }, true⟩]

/-- The rule to keep that a request holds. -/
def CreateRequest.ofRequest (r : Request) : Except Response CreateRequest :=
  Body.ofRequest CreateRequest.form ⟨""⟩ r

/-- The rules to combine that a request holds. -/
def CombineRequest.ofRequest (r : Request) : Except Response CombineRequest :=
  Body.ofRequest CombineRequest.form ⟨[]⟩ r

/-- The rule and the record that a request holds. -/
def EvaluateRequest.ofRequest (r : Request) : Except Response EvaluateRequest :=
  Body.ofRequest EvaluateRequest.form ⟨"", .null⟩ r

/-- The tree and the record that a request holds. -/
def EvaluateTreeRequest.ofRequest (r : Request) : Except Response EvaluateTreeRequest :=
  Body.ofRequest EvaluateTreeRequest.form ⟨.null, .null⟩ r

end Rulebook.Http
