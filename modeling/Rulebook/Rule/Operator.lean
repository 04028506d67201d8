import Rulebook.Error

/-!
# Comparisons and connectives

A condition compares with one of three signs; conditions are joined by one of two words. The
signs and words are exact: no other spelling and no other case is read.
-/

namespace Rulebook

/-- The sign of a condition. -/
inductive Comparison where
  | greater
  | less
  | equal
deriving DecidableEq

namespace Comparison

/-- How a comparison is written. -/
def sign : Comparison → String
  | .greater => ">"
  | .less => "<"
  | .equal => "="

/-- The comparison that a word writes. -/
def ofWord? (word : String) : Option Comparison :=
  if word = ">" then some .greater
  else if word = "<" then some .less
  else if word = "=" then some .equal
  else none

/-- The comparison that a word writes in a stored tree. -/
def resolve (word : String) : Except Error Comparison :=
  match ofWord? word with
  | some c => .ok c
  | none => .error (.unsupportedOperator word)

theorem ofWord?_sign (c : Comparison) : ofWord? c.sign = some c := by
  cases c <;> decide

theorem sign_of_ofWord? {word : String} {c : Comparison} (h : ofWord? word = some c) :
    c.sign = word := by
  unfold ofWord? at h
  split at h
  · cases h; subst word; rfl
  · split at h
    · cases h; subst word; rfl
    · split at h
      · cases h; subst word; rfl
      · cases h

end Comparison

/-- The word that joins two subtrees. -/
inductive Connective where
  | and
  | or
deriving DecidableEq

namespace Connective

/-- How a connective is written. -/
def word : Connective → String
  | .and => "AND"
  | .or => "OR"

/-- The connective that a word writes. -/
def ofWord? (word : String) : Option Connective :=
  if word = "AND" then some .and
  else if word = "OR" then some .or
  else none

/-- The connective that a word writes in a stored tree. -/
def resolve (word : String) : Except Error Connective :=
  match ofWord? word with
  | some c => .ok c
  | none => .error (.unsupportedOperator word)

/-- The truth of a join from the truth of its two sides. -/
def apply : Connective → Bool → Bool → Bool
  | .and, left, right => left && right
  | .or, left, right => left || right

theorem ofWord?_word (c : Connective) : ofWord? c.word = some c := by
  cases c <;> decide

theorem word_of_ofWord? {word : String} {c : Connective} (h : ofWord? word = some c) :
    c.word = word := by
  unfold ofWord? at h
  split at h
  · cases h; subst word; rfl
  · split at h
    · cases h; subst word; rfl
    · cases h

end Connective

end Rulebook
