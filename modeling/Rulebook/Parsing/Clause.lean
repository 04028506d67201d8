import Rulebook.Rule.Tree

/-!
# Clauses

A clause is exactly three words: an attribute, the sign of a comparison and the word of a literal.
-/

namespace Rulebook.Parsing

/-- The condition that the words of a clause write. -/
def clause : List String → Except Error Tree
  | [field, sign, word] =>
    match Comparison.ofWord? sign with
    | some comparison => .ok (.leaf ⟨field, comparison, .ofWord word⟩)
    | none => .error (.invalidComparison sign)
  | words => .error (.malformedClause (" ".intercalate words))

end Rulebook.Parsing
