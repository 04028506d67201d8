import Rulebook.Json.Fault

/-!
# Errors of the rulebook

Every operation on rules fails with one of these causes. A cause belongs to a kind, the kind
decides the code that answers carry, and the wording is in `message`.
-/

namespace Rulebook

/-- The two sides of a connective. -/
inductive Side where
  | left
  | right
deriving DecidableEq

/-- The name of a side in messages. -/
def Side.name : Side → String
  | .left => "左"
  | .right => "右"

/-- Why an operation fails. -/
inductive Error where
  /-- a rule of blanks only, or of nothing -/
  | emptyRule
  /-- a clause that is not three words -/
  | malformedClause (clause : String)
  /-- a connective with nothing on one side -/
  | danglingConnective (connective : String) (side : Side)
  /-- a clause whose second word is no comparison -/
  | invalidComparison (word : String)
  /-- parentheses that do not match -/
  | unbalancedParentheses (detail : String)
  /-- a tree, or a bound on one, deeper than allowed -/
  | depthExceeded (depth limit : Nat)
  /-- an argument or a setting that cannot be used -/
  | invalidInput (detail : String)
  /-- a word that is no comparison or no connective where a stored tree needs one -/
  | unsupportedOperator (word : String)
  /-- an attribute that the record does not have -/
  | fieldNotFound (field : String)
  /-- an identifier under which no rule is stored -/
  | ruleNotFound (id : String)
  /-- a document that does not have the shape of a tree -/
  | badDocument (fault : Fault)

namespace Error

/-- The kinds of errors. -/
inductive Kind where
  | syntactic
  | value
  | evaluation
  | notFound
  | serialization
deriving DecidableEq

/-- The kind of an error. -/
def kind : Error → Kind
  | .emptyRule | .malformedClause _ | .danglingConnective .. | .invalidComparison _
  | .unbalancedParentheses _ | .depthExceeded .. => .syntactic
  | .invalidInput _ => .value
  | .unsupportedOperator _ | .fieldNotFound _ => .evaluation
  | .ruleNotFound _ => .notFound
  | .badDocument _ => .serialization

/-- The code of a kind of errors in answers. -/
def Kind.code : Kind → String
  | .syntactic => "SYNTAX_ERROR"
  | .value => "VALUE_ERROR"
  | .evaluation => "EVALUATION_ERROR"
  | .notFound => "RULE_NOT_FOUND"
  | .serialization => "SERIALIZATION_ERROR"

/-- The code of an error in answers. -/
def code (e : Error) : String := e.kind.code

/-- The text of an error. -/
def message : Error → String
  | .emptyRule => "规则不能为空"
  | .malformedClause clause => "条件子句格式错误: '" ++ clause ++ "'，应为 <字段> <操作符> <值>"
  | .danglingConnective connective side =>
    "逻辑操作符 " ++ connective ++ " 缺少" ++ side.name ++ "侧表达式"
  | .invalidComparison word => "无效的比较操作符: " ++ word
  | .unbalancedParentheses detail => "括号不匹配: " ++ detail
  | .depthExceeded depth limit =>
    "规则嵌套过深: 深度 " ++ String.ofList (Decimal.toDigits depth) ++ " 超过上限 " ++
      String.ofList (Decimal.toDigits limit)
  | .invalidInput detail => "无效的输入: " ++ detail
  | .unsupportedOperator word => "不支持的操作符: " ++ word
  | .fieldNotFound field => "字段不存在: " ++ field
  | .ruleNotFound id => "规则未找到: " ++ id
  | .badDocument fault => "JSON 序列化错误: " ++ fault.message

end Error

end Rulebook
