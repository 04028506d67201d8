import Rulebook.Evaluation.Outcome
import Rulebook.Http.Message
import Rulebook.Record.Basic

/-!
# Replies

Every answer of a handler is a document with the same four members: whether it is a success, a
code, a message and data. A success has status 200; a refusal has the status of its kind.
-/

namespace Rulebook.Http

/-- Why a handler refuses a request. -/
inductive Refusal where
  /-- values in the body are not allowed; a line for each -/
  | validation (lines : List String)
  /-- the operation failed -/
  | rule (error : Error)

namespace Refusal

/-- The status of a kind of errors. -/
def statusOfKind : Error.Kind → Nat
  | .syntactic | .value | .serialization => 400
  | .evaluation => 422
  | .notFound => 404

/-- The status of a refusal. -/
def status : Refusal → Nat
  | .validation _ => 400
  | .rule e => statusOfKind e.kind

/-- The code of a refusal. -/
def code : Refusal → String
  | .validation _ => "VALIDATION_ERROR"
  | .rule e => e.code

/-- The text of a refusal. -/
def message : Refusal → String
  | .validation lines => "参数验证失败: " ++ "\n".intercalate lines
  | .rule e => e.message

end Refusal

/-! ## Bodies of replies -/

/-- A response with a document. -/
def Response.json (status : Nat) (document : Json) : Response :=
  { status, contentType := some "application/json", body := document.print }

/-- The document of a success. -/
def successDocument (data : Option Json) : Json :=
  .object ([("success", .bool true), ("code", .text "SUCCESS"), ("message", .text "操作成功")] ++
    (match data with
      | some value => [("data", value)]
      | none => []))

/-- The document of a refusal. -/
def refusalDocument (r : Refusal) : Json :=
  .object [("code", .text r.code), ("data", .null), ("message", .text r.message),
    ("success", .bool false)]

/-- The reply of a handler. -/
def reply (answer : Except Refusal (Option Json)) : Response :=
  match answer with
  | .ok data => .json 200 (successDocument data)
  | .error refusal => .json refusal.status (refusalDocument refusal)

/-- The document of an outcome; empty lists are left out, and the time taken is not measured. -/
def outcomeDocument (o : Outcome) : Json :=
  let texts (name : String) (lines : List String) : List (String × Json) :=
    if lines.isEmpty then [] else [(name, .list (lines.map .text))]
  .object ([("result", .bool o.matched)] ++ texts "matched_conditions" o.conditions ++
    texts "evaluation_trace" o.trace ++ [("evaluation_time_us", .number (.int 0))])

end Rulebook.Http
