import Rulebook.Rule.Tree

/-!
# Comparing values with literals

Numbers are compared with numbers and texts with texts, numbers by position and texts by code
points. Any other pair of kinds has no order and is not equal either.
-/

namespace Rulebook

/-- The order of a value and a literal, if they have one. -/
def Json.order? (value : Json) (literal : Literal) : Option Ordering :=
  match value, literal with
  | .number n, .number x => n.toBinary64.compare? x
  | .text s, .text t => some (compare s t)
  | _, _ => none

/-- Whether a value equals a literal. -/
def Json.equals (value : Json) (literal : Literal) : Bool :=
  match value, literal with
  | .number n, .number x => n.toBinary64.same x
  | .text s, .text t => s == t
  | _, _ => false

/-- Whether a value stands to a literal as the comparison says. -/
def Comparison.holds (comparison : Comparison) (value : Json) (literal : Literal) : Bool :=
  match comparison with
  | .greater => value.order? literal == some .gt
  | .less => value.order? literal == some .lt
  | .equal => value.equals literal

/-- Whether a condition holds of the value of its attribute, which must be there. -/
def Condition.test (condition : Condition) : Option Json → Except Error Bool
  | some value => .ok (condition.comparison.holds value condition.literal)
  | none => .error (.fieldNotFound condition.field)

end Rulebook
