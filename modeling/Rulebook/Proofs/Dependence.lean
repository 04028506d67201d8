import Rulebook.Proofs.Meaning
import Rulebook.Proofs.Measures

/-!
# What an evaluation reads

A rule names attributes, and evaluating it reads their values and nothing else of the record: two
records that have the same value for each attribute of the rule, or both have none, cannot be told
apart by evaluating it, with a trace or without. Of the values it tells even less than all, since
they are only compared with literals: values that are equal as values need not be the same data, the
two zeros being the least of it, and they compare alike with every literal
(`Comparison.holds_of_same`). On the other hand each attribute is read, whatever the others are:
without any one of them the rule fails.

The attributes are collected by a walk over the nodes of the tree, and the values are read by
recursion on the tree; what both go by are the conditions of the tree.
-/

namespace Rulebook

/-! ## Equal values -/

/-- Equality of numbers of documents: integers by their value, all others as binary64 numbers, and
no integer equals one of the others. -/
def Number.same : Number → Number → Bool
  | .int m, .int n => m == n
  | .real x, .real y => x.same y
  | _, _ => false

namespace Json

mutual

/-- Equality of values: numbers as numbers, lists item by item, and objects by what they have under
their keys, in whatever order. -/
def same : Json → Json → Bool
  | .null, .null => true
  | .bool a, .bool b => a == b
  | .number m, .number n => m.same n
  | .text s, .text t => s == t
  | .list items, .list others => sameItems items others
  | .object members, .object others =>
    members.length == others.length && sameMembers members others
  | _, _ => false

/-- Equality of two lists of values, item by item. -/
def sameItems : List Json → List Json → Bool
  | [], [] => true
  | item :: items, other :: others => item.same other && sameItems items others
  | _, _ => false

/-- Each of the members is equal to the other member with its key. -/
def sameMembers : List (String × Json) → List (String × Json) → Bool
  | [], _ => true
  | (key, value) :: rest, others =>
    (match member? key others with
      | some other => value.same other
      | none => false) && sameMembers rest others

end

end Json

/-- Numbers that are equal stand at one place of the order. -/
theorem Binary64.compare?_of_same {x y : Binary64} (h : x.same y) (z : Binary64) :
    x.compare? z = y.compare? z := by
  cases x with
  | nan => cases h
  | infinite s =>
    cases y with
    | nan => cases h
    | finite t n => cases s <;> cases h
    | infinite t =>
      cases s <;> cases t
      · rfl
      · cases h
      · cases h
      · rfl
  | finite s m =>
    cases y with
    | nan => cases h
    | infinite t => cases t <;> cases h
    | finite t n =>
      have hposition : position s m = position t n :=
        Std.compare_eq_iff_eq.1 (Option.some.inj (beq_iff_eq.1 h))
      cases z with
      | nan => rfl
      | infinite u => rfl
      | finite u k => rw [compare?, compare?, hposition]

theorem Number.compare?_of_same {m n : Number} (h : m.same n) (x : Binary64) :
    m.toBinary64.compare? x = n.toBinary64.compare? x := by
  cases m with
  | int a =>
    cases n with
    | int b =>
      obtain rfl : a = b := beq_iff_eq.1 h
      rfl
    | real y => cases h
  | real y =>
    cases n with
    | int b => cases h
    | real z => exact Binary64.compare?_of_same h x

/-- A value equals a literal where their order says so. -/
theorem Json.equals_eq_order? (value : Json) (literal : Literal) :
    value.equals literal = (value.order? literal == some .eq) := by
  cases value with
  | null | bool _ | list _ | object _ => rfl
  | number n =>
    cases literal with
    | number x => rfl
    | text t => rfl
  | text s =>
    cases literal with
    | number x => rfl
    | text t =>
      rw [equals, order?, Bool.eq_iff_iff, beq_iff_eq, beq_iff_eq, Option.some.injEq,
        Std.compare_eq_iff_eq]

variable {v w : Json}

theorem Json.order?_of_same (h : v.same w) (literal : Literal) :
    v.order? literal = w.order? literal := by
  unfold Json.same at h
  split at h
  · rfl
  · rfl
  · next m n =>
    cases literal with
    | number x => exact Number.compare?_of_same h x
    | text s => rfl
  · next s t =>
    obtain rfl : s = t := beq_iff_eq.1 h
    rfl
  · rfl
  · rfl
  · cases h

/-- Equal values compare alike with every literal. -/
theorem Comparison.holds_of_same (h : v.same w) (comparison : Comparison) (literal : Literal) :
    comparison.holds v literal = comparison.holds w literal := by
  cases comparison with
  | greater => rw [holds, holds, Json.order?_of_same h]
  | less => rw [holds, holds, Json.order?_of_same h]
  | equal => rw [holds, holds, Json.equals_eq_order?, Json.equals_eq_order?, Json.order?_of_same h]

/-! ## Records that cannot be told apart -/

/-- Two values that are one or that are equal, or the lack of both. -/
def SameValue : Option Json → Option Json → Prop := Option.Rel fun v w => v = w ∨ v.same w

/-- The records have equal values for a name, or both have none. -/
def AgreeOn (first second : Json) (name : String) : Prop :=
  SameValue (Lookup.field? first name) (Lookup.field? second name)

/-- A condition is tested alike with equal values, and with none. -/
theorem Condition.test_of_sameValue {a b : Option Json} (h : SameValue a b) (c : Condition) :
    c.test a = c.test b := by
  cases h with
  | none => rfl
  | some hsame =>
    obtain rfl | hsame := hsame
    · rfl
    · rw [test, test, Comparison.holds_of_same hsame]

variable {first second : Json}

namespace Tree

/-- Records that agree on the attributes of all conditions are evaluated alike at every path. -/
theorem evaluateAt_congr {tree : Tree}
    (h : ∀ c ∈ tree.conditions, AgreeOn first second c.field) (traced : Bool) (path : String) :
    tree.evaluateAt traced first path = tree.evaluateAt traced second path := by
  induction tree generalizing path with
  | leaf c =>
    have htest := c.test_of_sameValue (h c (List.mem_singleton_self c))
    rw [evaluateAt, evaluateAt, htest]
  | join c left right ihl ihr =>
    have hl := ihl fun d hd => h d (List.mem_append_left _ hd)
    have hr := ihr fun d hd => h d (List.mem_append_right _ hd)
    rw [evaluateAt, evaluateAt, hl, hr]

/-- Evaluating fails exactly if the record has no value for an attribute. -/
theorem evaluate_fails_iff {tree : Tree} {traced : Bool} {record : Json} :
    (∃ e, tree.evaluate traced record = .error e) ↔
      ∃ c ∈ tree.conditions, Lookup.field? record c.field = none := by
  have hmissing : (∃ e, tree.evaluate traced record = .error e) ↔
      (tree.firstMissing? record).isSome := by
    simp only [evaluate_eq_error_iff, Option.isSome_iff_exists]
    refine ⟨?_, ?_⟩
    · rintro ⟨_, c, hc, rfl⟩
      exact ⟨c, hc⟩
    · rintro ⟨c, hc⟩
      exact ⟨_, c, hc, rfl⟩
  rw [hmissing, firstMissing?, List.find?_isSome]
  simp only [Condition.missing, Option.isNone_iff_eq_none]

/-- **Evaluating a rule reads its attributes.** On any two records that agree on the attributes of a
rule, the rule has the same outcome, its conditions and its trace with it, or the same error. And on
any record it fails exactly if the record has no value for one of its attributes. -/
theorem evaluate_reads_attributes (tree : Tree) :
    (∀ first second : Json, (∀ name ∈ tree.attributes, AgreeOn first second name) →
      ∀ traced, tree.evaluate traced first = tree.evaluate traced second) ∧
    ∀ (record : Json) (traced : Bool), (∃ e, tree.evaluate traced record = .error e) ↔
      ∃ name ∈ tree.attributes, Lookup.field? record name = none := by
  refine ⟨?_, ?_⟩
  · intro first second h traced
    exact evaluateAt_congr (fun c hc => h c.field (mem_attributes.2 ⟨c, hc, rfl⟩)) traced "root"
  · intro record traced
    rw [evaluate_fails_iff]
    refine ⟨?_, ?_⟩
    · rintro ⟨c, hc, hnone⟩
      exact ⟨c.field, mem_attributes.2 ⟨c, hc, rfl⟩, hnone⟩
    · rintro ⟨name, hname, hnone⟩
      obtain ⟨c, hc, rfl⟩ := mem_attributes.1 hname
      exact ⟨c, hc, hnone⟩

/-- Two records with different zeros, which agree on a path through an object too, and have nothing
else in common. -/
theorem evaluate_reads_attributes_zeros :
    (∀ name ∈ (join .or (leaf ⟨"a", .less, .number .zero⟩)
        (leaf ⟨"b.c", .equal, .text "x"⟩)).attributes,
      AgreeOn (.object [("a", .number (.real .zero)), ("b", .object [("c", .text "x")])])
        (.object [("b", .object [("c", .text "x"), ("d", .null)]),
          ("a", .number (.real (.finite true .zero)))]) name) ∧
    (join .or (leaf ⟨"a", .less, .number .zero⟩) (leaf ⟨"b.c", .equal, .text "x"⟩)).evaluate true
        (.object [("a", .number (.real .zero)), ("b", .object [("c", .text "x")])]) =
      (join .or (leaf ⟨"a", .less, .number .zero⟩) (leaf ⟨"b.c", .equal, .text "x"⟩)).evaluate true
        (.object [("b", .object [("c", .text "x"), ("d", .null)]),
          ("a", .number (.real (.finite true .zero)))]) := by
  have hagree : ∀ name ∈ (join .or (leaf ⟨"a", .less, .number .zero⟩)
        (leaf ⟨"b.c", .equal, .text "x"⟩)).attributes,
      AgreeOn (.object [("a", .number (.real .zero)), ("b", .object [("c", .text "x")])])
        (.object [("b", .object [("c", .text "x"), ("d", .null)]),
          ("a", .number (.real (.finite true .zero)))]) name := by
    intro name hname
    obtain ⟨c, hc, rfl⟩ := mem_attributes.1 hname
    rcases List.mem_cons.1 hc with rfl | hc
    · exact .some (.inr rfl)
    · obtain rfl := List.mem_singleton.1 hc
      exact .some (.inr rfl)
  exact ⟨hagree, (evaluate_reads_attributes _).1 _ _ hagree true⟩

end Tree

end Rulebook
