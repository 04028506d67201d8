import Rulebook.Proofs.Combination
import Rulebook.Proofs.Meaning

/-!
# What a combination means

A combination is a chain of the rules under one connective. It has the conditions of the rules one
after the other, so the first attribute that it misses is the first that the first failing rule
misses; and its truth is the conjunction or the disjunction of theirs, since one connective serves
the whole chain. Which of the two it is follows from the joins of all rules together.
-/

namespace Rulebook

/-- The truth of many under one connective. -/
def Connective.applyAll : Connective → List Bool → Bool
  | .and, truths => truths.all id
  | .or, truths => truths.any id

/-- A connective that is applied to its first truth and to what it makes of the others. -/
theorem Connective.applyAll_cons_cons (c : Connective) (first second : Bool) (rest : List Bool) :
    c.applyAll (first :: second :: rest) = c.apply first (c.applyAll (second :: rest)) := by
  cases c with
  | and => rfl
  | or => rfl

namespace Tree

variable {record : Json}

/-! ## Chains -/

theorem conditions_chain (c : Connective) (tree : Tree) (rest : List Tree) :
    (chain c tree rest).conditions = (tree :: rest).flatMap conditions := by
  induction rest generalizing tree with
  | nil => rw [chain, List.flatMap_cons, List.flatMap_nil, List.append_nil]
  | cons next rest ih =>
    rw [chain, conditions, ih]
    rfl

theorem holding_chain (c : Connective) (tree : Tree) (rest : List Tree) :
    (chain c tree rest).holding record = (tree :: rest).flatMap (holding record) := by
  rw [holding, conditions_chain, List.filter_flatMap]
  rfl

theorem firstMissing?_chain (c : Connective) (tree : Tree) (rest : List Tree) :
    (chain c tree rest).firstMissing? record =
      (tree :: rest).findSome? (firstMissing? record) := by
  rw [firstMissing?, conditions_chain, List.find?_flatMap]
  rfl

theorem meaning_chain (c : Connective) (tree : Tree) (rest : List Tree) :
    (chain c tree rest).meaning record = c.applyAll ((tree :: rest).map (meaning record)) := by
  induction rest generalizing tree with
  | nil => cases c <;> simp [chain, Connective.applyAll]
  | cons next rest ih =>
    rw [chain, meaning, ih]
    exact (Connective.applyAll_cons_cons ..).symm

/-! ## Evaluating the rules one by one -/

/-- Rules that are all evaluated miss nothing and give their own outcomes. -/
theorem mapM_evaluate_eq_ok {traced : Bool} {trees : List Tree} {parts : List Outcome}
    (h : trees.mapM (evaluate traced record) = .ok parts) :
    (∀ tree ∈ trees, tree.firstMissing? record = none) ∧
      parts = trees.map (outcome traced record "root") := by
  induction trees generalizing parts with
  | nil =>
    cases h
    refine ⟨?_, rfl⟩
    intro tree htree
    cases htree
  | cons tree trees ih =>
    obtain ⟨part, rest, hpart, hrest, rfl⟩ := Except.mapM_cons_eq_ok.1 h
    obtain ⟨hnone, rfl⟩ := evaluate_eq_ok_iff.1 hpart
    obtain ⟨hall, rfl⟩ := ih hrest
    exact ⟨List.forall_mem_cons.2 ⟨hnone, hall⟩, rfl⟩

/-- A chain fails with the error of the first tree that fails. -/
theorem evaluate_chain_eq_error_iff {traced : Bool} {c : Connective} {tree : Tree}
    {rest : List Tree} {e : Error} :
    (chain c tree rest).evaluate traced record = .error e ↔ ∃ before t after,
      tree :: rest = before ++ t :: after ∧ t.evaluate traced record = .error e ∧
        ∀ b ∈ before, ∃ o, b.evaluate traced record = .ok o := by
  simp only [evaluate_eq_error_iff, evaluate_eq_ok_iff, firstMissing?_chain,
    List.findSome?_eq_some_iff]
  refine ⟨?_, ?_⟩
  · rintro ⟨missing, ⟨before, t, after, hsplit, hfirst, hbefore⟩, rfl⟩
    exact ⟨before, t, after, hsplit, ⟨missing, hfirst, rfl⟩, fun b hb => ⟨_, hbefore b hb, rfl⟩⟩
  · rintro ⟨before, t, after, hsplit, ⟨missing, hfirst, rfl⟩, hbefore⟩
    refine ⟨missing, ⟨before, t, after, hsplit, hfirst, fun b hb => ?_⟩, rfl⟩
    obtain ⟨o, hnone, -⟩ := hbefore b hb
    exact hnone

/-- A chain fails exactly if one of its trees does. -/
theorem evaluate_chain_fails_iff {traced : Bool} {c : Connective} {tree : Tree}
    {rest : List Tree} :
    (∃ e, (chain c tree rest).evaluate traced record = .error e) ↔
      ∃ t ∈ tree :: rest, ∃ e, t.evaluate traced record = .error e := by
  simp only [evaluate_eq_error_iff, firstMissing?_chain]
  refine ⟨?_, ?_⟩
  · rintro ⟨_, missing, hchain, rfl⟩
    obtain ⟨t, ht, hfirst⟩ := List.exists_of_findSome?_eq_some hchain
    exact ⟨t, ht, _, missing, hfirst, rfl⟩
  · rintro ⟨t, ht, _, missing, hfirst, rfl⟩
    -- the chain may fail sooner than at this tree, but it fails
    have hsome : ((tree :: rest).findSome? (firstMissing? record)).isSome :=
      List.findSome?_isSome_iff.2 ⟨t, ht, Option.isSome_iff_exists.2 ⟨missing, hfirst⟩⟩
    obtain ⟨first, hchain⟩ := Option.isSome_iff_exists.1 hsome
    exact ⟨_, first, hchain, rfl⟩

/-- A chain whose trees are all evaluated applies its connective to their truths and lists their
conditions one after the other. -/
theorem evaluate_chain_of_parts {traced : Bool} {c : Connective} {tree : Tree}
    {rest : List Tree} {parts : List Outcome}
    (h : (tree :: rest).mapM (evaluate traced record) = .ok parts) :
    ∃ o, (chain c tree rest).evaluate traced record = .ok o ∧
      o.matched = c.applyAll (parts.map (·.matched)) ∧
      o.conditions = parts.flatMap (·.conditions) := by
  obtain ⟨hall, rfl⟩ := mapM_evaluate_eq_ok h
  have hnone : (chain c tree rest).firstMissing? record = none := by
    rw [firstMissing?_chain]
    exact List.findSome?_eq_none_iff.2 hall
  refine ⟨_, evaluate_eq_ok_iff.2 ⟨hnone, rfl⟩, ?_, ?_⟩
  · rw [outcome, meaning_chain, List.map_map]
    rfl
  · rw [outcome, holding_chain, List.map_flatMap, List.flatMap_map]
    rfl

end Tree

/-! ## Combinations -/

/-- How many joins with the connective there are in all the trees together. -/
def Tree.joinsAmong (c : Connective) : List Tree → Nat
  | [] => 0
  | tree :: rest => tree.joins c + joinsAmong c rest

/-- The connective of a combination: `OR` only if the strategy counts and there are more joins with
it than with `AND` in all rules together. -/
theorem Strategy.connective_eq (strategy : Strategy) (trees : List Tree) :
    strategy.connective trees =
      if strategy = .mostFrequent ∧
          Tree.joinsAmong .and trees < Tree.joinsAmong .or trees
        then .or else .and := by
  -- the fold counts on from any counts, not only from zero
  have hcounts : ∀ counts : Nat × Nat, trees.foldl
      (fun counts tree =>
        let own := tree.connectiveCounts
        (counts.1 + own.1, counts.2 + own.2)) counts =
      (counts.1 + Tree.joinsAmong .and trees, counts.2 + Tree.joinsAmong .or trees) := by
    induction trees with
    | nil => exact fun counts => rfl
    | cons tree trees ih =>
      intro counts
      rw [List.foldl_cons, ih, Tree.connectiveCounts_eq_joins]
      simp only [Tree.joinsAmong, Nat.add_assoc]
  cases strategy with
  | fixedAnd => rfl
  | mostFrequent =>
    rw [connective, hcounts]
    simp

namespace Combiner

/-- **A combination means what its rules mean.** It fails exactly if one of the rules fails, and
with the error of the first that does. Otherwise it lists the conditions of the rules in their
order, and its truth is the conjunction of theirs; it is their disjunction exactly if the strategy
goes by frequency and the rules have more joins with `OR` than with `AND`. -/
theorem evaluate_combined {combiner : Combiner} {trees : List Tree} {tree : Tree}
    (h : combiner.combineTrees trees = .ok tree) (traced : Bool) (record : Json) :
    (∀ e, tree.evaluate traced record = .error e ↔ ∃ before t after,
      trees = before ++ t :: after ∧ t.evaluate traced record = .error e ∧
        ∀ b ∈ before, ∃ o, b.evaluate traced record = .ok o) ∧
    ((∃ e, tree.evaluate traced record = .error e) ↔
      ∃ t ∈ trees, ∃ e, t.evaluate traced record = .error e) ∧
    ∀ parts, trees.mapM (Tree.evaluate traced record) = .ok parts →
      ∃ o, tree.evaluate traced record = .ok o ∧
        o.matched = (if combiner.strategy = .mostFrequent ∧
            Tree.joinsAmong .and trees < Tree.joinsAmong .or trees
          then parts.any (·.matched) else parts.all (·.matched)) ∧
        o.conditions = parts.flatMap (·.conditions) := by
  obtain ⟨first, rest, rfl, rfl, -⟩ := combineTrees_eq_ok.1 h
  refine ⟨fun e => Tree.evaluate_chain_eq_error_iff, Tree.evaluate_chain_fails_iff, ?_⟩
  intro parts hparts
  obtain ⟨o, hevaluate, hmatched, hconditions⟩ := Tree.evaluate_chain_of_parts hparts
  refine ⟨o, hevaluate, ?_, hconditions⟩
  rw [hmatched, Strategy.connective_eq]
  split
  · rw [Connective.applyAll, List.any_map]
    rfl
  · rw [Connective.applyAll, List.all_map]
    rfl

/-- Two rules with one `OR` between them, joined by the more frequent connective: one of them holds
and so does the combination. -/
theorem evaluate_combined_by_frequency :
    ∃ o, (Tree.join .or
        (.join .or (.leaf ⟨"a", .equal, .text "x"⟩) (.leaf ⟨"b", .equal, .text "x"⟩))
        (.leaf ⟨"a", .equal, .text "y"⟩)).evaluate false
          (.object [("a", .text "x"), ("b", .text "x")]) = .ok o ∧
      o.matched = true ∧ o.conditions = ["a = 'x'", "b = 'x'"] := by
  have hconnective : Strategy.mostFrequent.connective
      [.join .or (.leaf ⟨"a", .equal, .text "x"⟩) (.leaf ⟨"b", .equal, .text "x"⟩),
        .leaf ⟨"a", .equal, .text "y"⟩] = .or := by
    rw [Strategy.connective_eq]
    decide
  have hcombine : (⟨⟨.firstMatch, 3⟩, .mostFrequent⟩ : Combiner).combineTrees
      [.join .or (.leaf ⟨"a", .equal, .text "x"⟩) (.leaf ⟨"b", .equal, .text "x"⟩),
        .leaf ⟨"a", .equal, .text "y"⟩] =
      .ok (.join .or (.join .or (.leaf ⟨"a", .equal, .text "x"⟩) (.leaf ⟨"b", .equal, .text "x"⟩))
        (.leaf ⟨"a", .equal, .text "y"⟩)) :=
    combineTrees_eq_ok.2 ⟨_, _, rfl, by rw [hconnective]; rfl, by decide⟩
  obtain ⟨-, -, hparts⟩ := evaluate_combined hcombine false
    (.object [("a", .text "x"), ("b", .text "x")])
  exact hparts [⟨true, ["a = 'x'", "b = 'x'"], []⟩, ⟨false, [], []⟩] rfl

end Combiner

end Rulebook
