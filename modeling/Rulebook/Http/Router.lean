import Rulebook.Http.Body
import Rulebook.Http.Percent
import Rulebook.Http.Reply
import Rulebook.Service.Operations

/-!
# The router

A path names an endpoint, an endpoint takes certain methods, and a handler answers the request by
a program of the service. Paths are compared as they are written; only the identifier at the end
of a path is decoded. `HEAD` is answered as `GET`, without the body. Every answered request is
counted, and every response carries an identifier of the request: the one that came with it, or a
fresh one.
-/

namespace Rulebook.Http

/-- What a path names. -/
inductive Endpoint where
  | health
  | rules
  | create
  | combine
  | evaluate
  | evaluateTree
  /-- one rule; its identifier as it was written -/
  | rule (segment : String)
deriving DecidableEq

namespace Endpoint

/-- What stands below the path of the rules. -/
def below (segment : String) : Option Endpoint :=
  if segment = "create" then some .create
  else if segment = "combine" then some .combine
  else if segment = "evaluate" then some .evaluate
  else if segment = "evaluate-ast" then some .evaluateTree
  else if segment.isEmpty || segment.toList.contains '/' then none
  else some (.rule segment)

/-- The endpoint that a path names. -/
def ofPath? (path : String) : Option Endpoint :=
  if path = "/health" then some .health
  else if path = "/api/rules" then some .rules
  else
    let root := "/api/rules/".toList
    let cs := path.toList
    if root.isPrefixOf cs then below (String.ofList (cs.drop root.length)) else none

/-- The methods that an endpoint takes. -/
def allow : Endpoint → String
  | .health | .rules => "GET,HEAD"
  | .create | .combine | .evaluate | .evaluateTree => "POST"
  | .rule _ => "GET,HEAD,DELETE"

end Endpoint

/-! ## Handlers -/

/-- The line of a field whose value is not allowed. -/
def lineOf (field message : String) : String := field ++ ": " ++ message

/-- Complains of a record that is not an object. -/
def checkData (data : Json) : List String :=
  match data with
  | .object _ => []
  | _ => [lineOf "data" "data 必须是 JSON 对象"]

/-- Complains of an empty text. -/
def checkText (field message text : String) : List String :=
  if text.isEmpty then [lineOf field message] else []

/-- Goes on unless there are complaints. -/
def validated (lines : List String) (next : Program Response) : Program Response :=
  if lines.isEmpty then next else return reply (.error (.validation lines))

/-- The reply to the result of an operation. -/
def replyTo {α : Type} (document : α → Option Json) (result : Except Error α) : Response :=
  match result with
  | .ok value => reply (.ok (document value))
  | .error e => reply (.error (.rule e))

/-- Goes on with a body that could be read. -/
def withBody {α : Type} (body : Except Response α) (next : α → Program Response) :
    Program Response :=
  match body with
  | .ok value => next value
  | .error response => return response

/-- Goes on with an identifier that could be decoded. -/
def withId (segment : String) (next : String → Program Response) : Program Response :=
  match Percent.decode? segment with
  | some id => next id
  | none => return .text 400 "Invalid URL: Invalid UTF-8 in `id`"

/-- Keeps a rule. -/
def handleCreate (s : Settings) (id : String) (now : Timestamp) (r : Request) :
    Program Response :=
  withBody (CreateRequest.ofRequest r) fun q =>
    validated (checkText "rule_string" "规则字符串不能为空" q.rule) do
      return replyTo (some ·.document) (← Service.create s id now q.rule)

/-- Combines rules. -/
def handleCombine (s : Settings) (r : Request) : Program Response :=
  withBody (CombineRequest.ofRequest r) fun q => do
    return replyTo (some ·.document) (← Service.combine s q.rules)

/-- Evaluates a rule that is kept. -/
def handleEvaluate (s : Settings) (r : Request) : Program Response :=
  withBody (EvaluateRequest.ofRequest r) fun q =>
    validated (checkData q.data ++ checkText "rule_id" "规则 ID 不能为空" q.id) do
      return replyTo (some <| outcomeDocument ·) (← Service.evaluate s q.id q.data)

/-- Evaluates a rule that is given. -/
def handleEvaluateTree (s : Settings) (r : Request) : Program Response :=
  withBody (EvaluateTreeRequest.ofRequest r) fun q =>
    validated (checkData q.data) do
      return replyTo (some <| outcomeDocument ·) (← Service.evaluateDocument s q.tree q.data)

/-- Lists the rules. -/
def handleList : Program Response := do
  return replyTo (fun records => some (.list (records.map Record.document))) (← Service.list)

/-- Shows a rule. -/
def handleShow (segment : String) : Program Response :=
  withId segment fun id => do
    return replyTo (some ·.document) (← Service.fetch id)

/-- Removes a rule. -/
def handleDelete (segment : String) : Program Response :=
  withId segment fun id => do
    return replyTo (fun _ => none) (← Service.delete id)

/-- Answers a request at an endpoint that takes `GET`. -/
def answerGet (e : Endpoint) : Program Response :=
  match e with
  | .health => return .text 200 "OK"
  | .rules => handleList
  | .rule segment => handleShow segment
  | e => return .notAllowed e.allow

/-- Answers a request at an endpoint. -/
def answerAt (s : Settings) (id : String) (now : Timestamp) (r : Request) (e : Endpoint) :
    Program Response :=
  match e, r.method with
  | .create, "POST" => handleCreate s id now r
  | .combine, "POST" => handleCombine s r
  | .evaluate, "POST" => handleEvaluate s r
  | .evaluateTree, "POST" => handleEvaluateTree s r
  | .rule segment, "DELETE" => handleDelete segment
  | e, "GET" => answerGet e
  | e, "HEAD" => do return (← answerGet e).bare
  | e, _ => return .notAllowed e.allow

/-- Answers a request; the new rule, if one is kept, gets the identifier and the time given. -/
def route (s : Settings) (id : String) (now : Timestamp) (r : Request) : Program Response :=
  match Endpoint.ofPath? r.path with
  | some e => answerAt s id now r e
  | none => return .notFound

/-! ## Around the handlers -/

/-- Counts an answered request. -/
def counted (r : Request) (answer : Program Response) : Program Response := do
  let response ← answer
  Program.tell (.request r.method r.path response.status)
  return response

/-- The identifier of a request: the one that came with it, or a fresh one. -/
def requestId (fresh : String) (r : Request) : String :=
  (r.header? "x-request-id").getD fresh

/-- Puts the identifier of a request into its response. -/
def identified (fresh : String) (r : Request) (answer : String → Program Response) :
    Program Response := do
  let id := requestId fresh r
  return { (← answer id) with requestId := some id }

/-- What a request gets from outside: fresh identifiers for a rule and for the request itself, and
the present time. -/
structure Fresh where
  ruleId : String
  requestId : String
  now : Timestamp

/-- The service as a program per request. -/
def serve (s : Settings) (fresh : Fresh) (r : Request) : Program Response :=
  identified fresh.requestId r fun _ => counted r (route s fresh.ruleId fresh.now r)

/-- A service with one endpoint, which answers with the identifier of the request. -/
def echo (fresh : String) (r : Request) : Program Response :=
  identified fresh r fun id => counted r <|
    if r.path = "/echo" then
      if r.method = "GET" then return .text 200 id
      else if r.method = "HEAD" then return (Response.text 200 id).bare
      else return .notAllowed "GET,HEAD"
    else return .notFound

end Rulebook.Http
