import Rulebook.Proofs.Meaning
import Rulebook.Proofs.Measures

/-!
# More conditions that hold

Neither connective asks for anything to be false, so the truth of a tree can only grow with the
truth of its conditions (`Tree.truthUnder_mono`). What a tree is with all of its conditions false,
and with all of them true, then says the rest: a rule that matches has a condition that holds, and
a rule all of whose conditions hold matches. An evaluation is of this kind, with the truth that the
record gives the conditions.
-/

namespace Rulebook

/-- A connective of more is true if that of less is. -/
theorem Connective.apply_mono {c : Connective} {a b a' b' : Bool} (ha : a = true → a' = true)
    (hb : b = true → b' = true) (h : c.apply a b = true) : c.apply a' b' = true := by
  cases c with
  | and =>
    obtain ⟨hl, hr⟩ := Bool.and_eq_true_iff.1 h
    exact Bool.and_eq_true_iff.2 ⟨ha hl, hb hr⟩
  | or => exact Bool.or_eq_true_iff.2 ((Bool.or_eq_true_iff.1 h).imp ha hb)

/-- A test ends well with truth exactly if the condition holds. -/
theorem Condition.test_eq_ok_true_iff {record : Json} {c : Condition} :
    c.test (Lookup.field? record c.field) = .ok true ↔ c.holdsOf record = true := by
  unfold test holdsOf
  cases Lookup.field? record c.field with
  | none => exact iff_of_false (fun h => nomatch h) Bool.false_ne_true
  | some value => exact ⟨Except.ok.inj, congrArg Except.ok⟩

namespace Tree

/-- The truth of a tree when its conditions have the given truth. -/
def truthUnder (truth : Condition → Bool) : Tree → Bool
  | .leaf c => truth c
  | .join c left right => c.apply (left.truthUnder truth) (right.truthUnder truth)

/-- A tree means its truth with the truth that the record gives to the conditions. -/
theorem meaning_eq_truthUnder (record : Json) (tree : Tree) :
    tree.meaning record = tree.truthUnder (·.holdsOf record) := by
  induction tree with
  | leaf c => rfl
  | join c left right ihl ihr => rw [meaning, truthUnder, ihl, ihr]

/-- A tree that is true stays so when more of its conditions are. -/
theorem truthUnder_mono {tree : Tree} {less more : Condition → Bool}
    (h : ∀ c ∈ tree.conditions, less c = true → more c = true)
    (htrue : tree.truthUnder less = true) : tree.truthUnder more = true := by
  induction tree with
  | leaf c => exact h c (List.mem_singleton_self c) htrue
  | join c left right ihl ihr =>
    have hl := ihl fun d hd => h d (List.mem_append_left _ hd)
    have hr := ihr fun d hd => h d (List.mem_append_right _ hd)
    exact Connective.apply_mono hl hr htrue

theorem truthUnder_false (tree : Tree) : tree.truthUnder (fun _ => false) = false := by
  induction tree with
  | leaf c => rfl
  | join c left right ihl ihr =>
    rw [truthUnder, ihl, ihr]
    cases c <;> rfl

theorem truthUnder_true (tree : Tree) : tree.truthUnder (fun _ => true) = true := by
  induction tree with
  | leaf c => rfl
  | join c left right ihl ihr =>
    rw [truthUnder, ihl, ihr]
    cases c <;> rfl

variable {record first second : Json} {tree : Tree}

theorem meaning_mono
    (h : ∀ c ∈ tree.conditions, c.holdsOf first = true → c.holdsOf second = true)
    (hmeaning : tree.meaning first = true) : tree.meaning second = true := by
  rw [meaning_eq_truthUnder] at hmeaning ⊢
  exact truthUnder_mono h hmeaning

/-- Conditions that hold of the one record hold of the other in the same places. -/
theorem holding_sublist
    (h : ∀ c ∈ tree.conditions, c.holdsOf first = true → c.holdsOf second = true) :
    (tree.holding first).Sublist (tree.holding second) := by
  have hfirst : tree.holding first = (tree.holding second).filter (·.holdsOf first) := by
    rw [holding, holding, List.filter_filter]
    refine List.filter_congr fun c hc => ?_
    rw [Bool.eq_iff_iff, Bool.and_eq_true_iff]
    exact ⟨fun hholds => ⟨hholds, h c hc hholds⟩, And.left⟩
  rw [hfirst]
  exact List.filter_sublist

/-- With no condition that holds a tree is false. -/
theorem holding_ne_nil (h : tree.meaning record = true) : tree.holding record ≠ [] := by
  intro hnil
  have hnone : ∀ c ∈ tree.conditions, c.holdsOf record = true → false = true :=
    fun c hc => List.filter_eq_nil_iff.1 hnil c hc |>.elim
  rw [meaning_eq_truthUnder] at h
  have hfalse := truthUnder_mono hnone h
  rw [truthUnder_false] at hfalse
  cases hfalse

/-- With all conditions holding a tree is true. -/
theorem meaning_of_all (h : ∀ c ∈ tree.conditions, c.holdsOf record = true) :
    tree.meaning record = true := by
  rw [meaning_eq_truthUnder]
  exact truthUnder_mono (fun c hc _ => h c hc) tree.truthUnder_true

/-- As many conditions hold as there are exactly if all do. -/
theorem length_holding_eq_iff :
    (tree.holding record).length = tree.leafCount ↔
      ∀ c ∈ tree.conditions, c.holdsOf record = true := by
  rw [leafCount_eq_length, holding, List.length_filter_eq_length_iff]

/-- The leaf in a place, counted from the left, is tested with truth. -/
def MatchesAt (record : Json) (tree : Tree) (place : Nat) : Prop :=
  ∃ c, tree.conditions[place]? = some c ∧ c.test (Lookup.field? record c.field) = .ok true

theorem holdsOf_of_matchesAt
    (h : ∀ place, tree.MatchesAt first place → tree.MatchesAt second place) :
    ∀ c ∈ tree.conditions, c.holdsOf first = true → c.holdsOf second = true := by
  intro c hc hholds
  obtain ⟨place, hplace⟩ := List.mem_iff_getElem?.1 hc
  obtain ⟨d, hd, htest⟩ := h place ⟨c, hplace, Condition.test_eq_ok_true_iff.2 hholds⟩
  obtain rfl : c = d := Option.some.inj (hplace.symm.trans hd)
  exact Condition.test_eq_ok_true_iff.1 htest

/-- All leaves match exactly if all conditions hold. -/
theorem forall_matchesAt_iff :
    (∀ place < tree.leafCount, tree.MatchesAt record place) ↔
      ∀ c ∈ tree.conditions, c.holdsOf record = true := by
  rw [leafCount_eq_length]
  refine ⟨fun h c hc => ?_, fun h place hlt => ?_⟩
  · obtain ⟨place, hlt, rfl⟩ := List.mem_iff_getElem.1 hc
    obtain ⟨d, hd, htest⟩ := h place hlt
    obtain rfl : tree.conditions[place] = d :=
      Option.some.inj ((List.getElem?_eq_getElem hlt).symm.trans hd)
    exact Condition.test_eq_ok_true_iff.1 htest
  · have hholds := h _ (List.getElem_mem hlt)
    exact ⟨_, List.getElem?_eq_getElem hlt, Condition.test_eq_ok_true_iff.2 hholds⟩

/-- **Satisfying more conditions never loses a match.** Let a rule be evaluated well on two records,
with a trace or without, and let every leaf, place by place, that matches on the first one match on
the second. If the rule matches the first record then it matches the second, and the conditions that
are reported for the first are among those for the second, in their order. So a match never comes
without a condition that holds; and as many conditions are reported as there are leaves exactly if
all leaves match, and then the rule does. -/
theorem satisfying_more_keeps_match (tree : Tree) :
    (∀ first second traced traced' o p, tree.evaluate traced first = .ok o →
      tree.evaluate traced' second = .ok p →
      (∀ place, tree.MatchesAt first place → tree.MatchesAt second place) →
      (o.matched = true → p.matched = true) ∧ o.conditions.Sublist p.conditions) ∧
    ∀ record traced o, tree.evaluate traced record = .ok o →
      (o.matched = true → o.conditions ≠ []) ∧
      (o.conditions.length = tree.leafCount ↔
        ∀ place < tree.leafCount, tree.MatchesAt record place) ∧
      ((∀ place < tree.leafCount, tree.MatchesAt record place) → o.matched = true) := by
  refine ⟨?_, ?_⟩
  · intro first second traced traced' o p hfirst hsecond hmore
    obtain ⟨-, rfl⟩ := evaluate_eq_ok_iff.1 hfirst
    obtain ⟨-, rfl⟩ := evaluate_eq_ok_iff.1 hsecond
    have hholds := holdsOf_of_matchesAt hmore
    exact ⟨meaning_mono hholds, (holding_sublist hholds).map _⟩
  · intro record traced o hevaluate
    obtain ⟨-, rfl⟩ := evaluate_eq_ok_iff.1 hevaluate
    refine ⟨fun hmatched => ?_, ?_, fun hall => ?_⟩
    · exact mt List.map_eq_nil_iff.1 (holding_ne_nil hmatched)
    · rw [forall_matchesAt_iff, ← length_holding_eq_iff, outcome, List.length_map]
    · exact meaning_of_all (forall_matchesAt_iff.1 hall)

/-- One condition twice, on both sides of a disjunction: the first record satisfies both leaves of
it and not the third leaf, the second record satisfies all three. -/
theorem satisfying_more_keeps_match_repeated :
    let tree := join .or (leaf ⟨"a", .equal, .text "x"⟩)
      (join .and (leaf ⟨"a", .equal, .text "x"⟩) (leaf ⟨"b", .greater, .text "y"⟩))
    let first := Json.object [("a", .text "x"), ("b", .text "y")]
    let second := Json.object [("a", .text "x"), ("b", .text "z")]
    tree.evaluate true first = .ok (tree.outcome true first "root") ∧
    tree.evaluate false second = .ok (tree.outcome false second "root") ∧
    (∀ place, tree.MatchesAt first place → tree.MatchesAt second place) ∧
    (tree.outcome true first "root").conditions.Sublist
      (tree.outcome false second "root").conditions ∧
    (tree.outcome true first "root").conditions = ["a = 'x'", "a = 'x'"] ∧
    (tree.outcome false second "root").matched = true := by
  intro tree first second
  have hfirst : tree.evaluate true first = .ok (tree.outcome true first "root") := rfl
  have hsecond : tree.evaluate false second = .ok (tree.outcome false second "root") := rfl
  have hall : ∀ place < tree.leafCount, tree.MatchesAt second place := by
    refine forall_matchesAt_iff.2 ?_
    decide
  have hmore : ∀ place, tree.MatchesAt first place → tree.MatchesAt second place := by
    rintro place ⟨c, hc, -⟩
    refine hall place ?_
    rw [leafCount_eq_length]
    exact (List.getElem?_eq_some_iff.1 hc).1
  obtain ⟨hkeeps, hends⟩ := satisfying_more_keeps_match tree
  obtain ⟨-, hsublist⟩ := hkeeps first second true false _ _ hfirst hsecond hmore
  obtain ⟨-, -, hmatched⟩ := hends second false _ hsecond
  exact ⟨hfirst, hsecond, hmore, hsublist, rfl, hmatched hall⟩

end Tree

end Rulebook
