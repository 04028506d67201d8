import Rulebook.Evaluation.Outcome
import Rulebook.Proofs.Results

/-!
# What a rule means

A condition holds of a record or does not, and a connective joins what its two sides mean: that is
the meaning of a tree (`Tree.meaning`), and it says nothing of order, errors or traces. Evaluating
adds exactly one thing to it. An attribute that the record does not have is an error, the leftmost
one first, whatever the connectives are and whatever the other conditions say; with all attributes
there, the outcome is the meaning (`evaluate_eq`).
-/

namespace Rulebook

/-- Holds when the record has no value for the attribute of the condition. -/
def Condition.missing (record : Json) (c : Condition) : Bool :=
  (Lookup.field? record c.field).isNone

/-- Whether a condition holds of a record; without its attribute it does not. -/
def Condition.holdsOf (record : Json) (c : Condition) : Bool :=
  match Lookup.field? record c.field with
  | some value => c.comparison.holds value c.literal
  | none => false

/-- A condition is tested with the value of its attribute, or fails for want of it. -/
theorem Condition.test_eq (record : Json) (c : Condition) :
    c.test (Lookup.field? record c.field) =
      if c.missing record then .error (.fieldNotFound c.field) else .ok (c.holdsOf record) := by
  unfold missing holdsOf
  cases Lookup.field? record c.field with
  | none => rfl
  | some value => rfl

namespace Tree

/-- The truth of a tree on a record. -/
def meaning (record : Json) : Tree → Bool
  | .leaf c => c.holdsOf record
  | .join c left right => c.apply (left.meaning record) (right.meaning record)

/-- The conditions that hold of a record, from left to right and as often as they occur. -/
def holding (record : Json) (tree : Tree) : List Condition :=
  tree.conditions.filter (·.holdsOf record)

/-- The leftmost condition whose attribute the record does not have. -/
def firstMissing? (record : Json) (tree : Tree) : Option Condition :=
  tree.conditions.find? (·.missing record)

/-- A line for every node, after the lines of its sides: what the subtree at that path means. -/
def lines (record : Json) (path : String) : Tree → List String
  | .leaf c => [leafLine path c (c.holdsOf record)]
  | .join c left right =>
    left.lines record (path ++ ".left") ++ right.lines record (path ++ ".right") ++
      [joinLine path c (left.meaning record) (right.meaning record)
        ((join c left right).meaning record)]

variable {record : Json}

theorem holding_join (c : Connective) (left right : Tree) :
    (join c left right).holding record = left.holding record ++ right.holding record := by
  rw [holding, conditions, List.filter_append]
  rfl

/-- The left side is searched first. -/
theorem firstMissing?_join (c : Connective) (left right : Tree) :
    (join c left right).firstMissing? record =
      (left.firstMissing? record).or (right.firstMissing? record) := by
  rw [firstMissing?, conditions, List.find?_append]
  rfl

/-- No attribute is missing exactly if the record has a value for each. -/
theorem firstMissing?_eq_none_iff {tree : Tree} :
    tree.firstMissing? record = none ↔
      ∀ c ∈ tree.conditions, (Lookup.field? record c.field).isSome := by
  simp only [firstMissing?, List.find?_eq_none, Condition.missing, Option.isNone_iff_eq_none,
    Option.isSome_iff_ne_none, ne_eq]

/-- The first condition without its attribute has only conditions with theirs to its left. -/
theorem firstMissing?_eq_some_iff {tree : Tree} {c : Condition} :
    tree.firstMissing? record = some c ↔ ∃ before after,
      tree.conditions = before ++ c :: after ∧ Lookup.field? record c.field = none ∧
        ∀ b ∈ before, (Lookup.field? record b.field).isSome := by
  rw [firstMissing?, List.find?_eq_some_iff_append]
  simp only [Condition.missing, Option.isNone_iff_eq_none, Option.not_isNone]
  refine ⟨?_, ?_⟩
  · rintro ⟨hnone, before, after, hsplit, hbefore⟩
    exact ⟨before, after, hsplit, hnone, hbefore⟩
  · rintro ⟨before, after, hsplit, hnone, hbefore⟩
    exact ⟨hnone, before, after, hsplit, hbefore⟩

/-- The outcome of a tree whose attributes are all there. -/
def outcome (traced : Bool) (record : Json) (path : String) (tree : Tree) : Outcome where
  matched := tree.meaning record
  conditions := (tree.holding record).map Condition.display
  trace := if traced then tree.lines record path else []

/-- At every path a tree evaluates to its meaning, unless an attribute is missing. -/
theorem evaluateAt_eq (traced : Bool) (record : Json) (path : String) (tree : Tree) :
    tree.evaluateAt traced record path =
      match tree.firstMissing? record with
      | some c => .error (.fieldNotFound c.field)
      | none => .ok (tree.outcome traced record path) := by
  induction tree generalizing path with
  | leaf c =>
    rw [evaluateAt, Condition.test_eq]
    cases hmissing : c.missing record with
    | true =>
      have hfirst : (leaf c).firstMissing? record = some c :=
        List.find?_cons_of_pos hmissing
      rw [hfirst]
      rfl
    | false =>
      have hfirst : (leaf c).firstMissing? record = none :=
        List.find?_cons_of_neg (ne_true_of_eq_false hmissing)
      rw [hfirst]
      cases hholds : c.holdsOf record <;>
        simp [outcome, meaning, holding, conditions, lines, hholds]
  | join c left right ihl ihr =>
    -- the right side is reached only if the left one misses nothing, whatever it means
    rw [evaluateAt, ihl, ihr, firstMissing?_join]
    cases left.firstMissing? record with
    | some missing => rfl
    | none =>
      cases right.firstMissing? record with
      | some missing => rfl
      | none =>
        simp only [Except.ok_bind, Except.pure_eq, Option.or_none, outcome, holding_join,
          List.map_append, lines, meaning]
        cases traced <;> rfl

/-- A rule evaluates to its meaning, unless an attribute is missing. -/
theorem evaluate_eq (traced : Bool) (record : Json) (tree : Tree) :
    tree.evaluate traced record =
      match tree.firstMissing? record with
      | some c => .error (.fieldNotFound c.field)
      | none => .ok (tree.outcome traced record "root") :=
  evaluateAt_eq traced record "root" tree

/-- Inversion for evaluations that fail. -/
theorem evaluate_eq_error_iff {traced : Bool} {tree : Tree} {e : Error} :
    tree.evaluate traced record = .error e ↔
      ∃ c, tree.firstMissing? record = some c ∧ e = .fieldNotFound c.field := by
  rw [evaluate_eq]
  cases tree.firstMissing? record with
  | none =>
    refine ⟨?_, ?_⟩
    · intro h
      cases h
    · rintro ⟨c, h, -⟩
      cases h
  | some c =>
    refine ⟨?_, ?_⟩
    · intro h
      cases h
      exact ⟨c, rfl, rfl⟩
    · rintro ⟨_, h, rfl⟩
      cases h
      rfl

/-- Inversion for evaluations that end well. -/
theorem evaluate_eq_ok_iff {traced : Bool} {tree : Tree} {o : Outcome} :
    tree.evaluate traced record = .ok o ↔
      tree.firstMissing? record = none ∧ o = tree.outcome traced record "root" := by
  rw [evaluate_eq]
  cases tree.firstMissing? record with
  | none =>
    refine ⟨?_, ?_⟩
    · intro h
      cases h
      exact ⟨rfl, rfl⟩
    · rintro ⟨-, rfl⟩
      rfl
  | some c =>
    refine ⟨?_, ?_⟩
    · intro h
      cases h
    · rintro ⟨h, -⟩
      cases h

/-- The outcome of an evaluation without its lines. -/
def untraced (outcome : Outcome) : Outcome := { outcome with trace := [] }

/-- **Evaluating is meaning, or the first missing attribute.** With a trace or without one, a rule
fails exactly if the record lacks the attribute of one of its conditions, and then with the leftmost
such attribute; otherwise it gives its truth and the conditions that hold in their order. A trace
adds its lines and changes nothing else. -/
theorem evaluate_eq_meaning (record : Json) (tree : Tree) :
    (∀ traced, tree.evaluate traced record =
      match tree.firstMissing? record with
      | some c => .error (.fieldNotFound c.field)
      | none => .ok {
          matched := tree.meaning record
          conditions := (tree.conditions.filter (·.holdsOf record)).map Condition.display
          trace := if traced then tree.lines record "root" else [] }) ∧
    (∀ c, tree.firstMissing? record = some c ↔ ∃ before after,
      tree.conditions = before ++ c :: after ∧ Lookup.field? record c.field = none ∧
        ∀ b ∈ before, (Lookup.field? record b.field).isSome) ∧
    (tree.firstMissing? record = none ↔
      ∀ c ∈ tree.conditions, (Lookup.field? record c.field).isSome) ∧
    (tree.evaluate true record).map untraced = tree.evaluate false record := by
  refine ⟨fun traced => evaluate_eq traced record tree, fun c => firstMissing?_eq_some_iff,
    firstMissing?_eq_none_iff, ?_⟩
  rw [evaluate_eq, evaluate_eq]
  cases tree.firstMissing? record with
  | some c => rfl
  | none => rfl

/-- The left side of the disjunction holds, and still the first attribute missing on its right side
is an error, with a trace and without. -/
theorem evaluate_leftmost_missing :
    (join .or (leaf ⟨"a", .equal, .text "x"⟩)
      (join .and (leaf ⟨"b", .equal, .text "x"⟩) (leaf ⟨"c", .equal, .text "x"⟩))).evaluate true
        (.object [("a", .text "x")]) = .error (.fieldNotFound "b") ∧
    (join .or (leaf ⟨"a", .equal, .text "x"⟩)
      (join .and (leaf ⟨"b", .equal, .text "x"⟩) (leaf ⟨"c", .equal, .text "x"⟩))).evaluate false
        (.object [("a", .text "x")]) = .error (.fieldNotFound "b") := by
  obtain ⟨hevaluate, -⟩ := evaluate_eq_meaning (.object [("a", .text "x")])
    (join .or (leaf ⟨"a", .equal, .text "x"⟩)
      (join .and (leaf ⟨"b", .equal, .text "x"⟩) (leaf ⟨"c", .equal, .text "x"⟩)))
  exact ⟨hevaluate true, hevaluate false⟩

end Tree

end Rulebook
