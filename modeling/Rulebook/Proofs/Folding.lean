import Rulebook.Proofs.Combination

/-!
# Combining is reading and folding

Combining rules is three things one after the other: no more rules than the limit, each of them
read, and the chain of their trees under one connective, if that is no deeper than the limit
(`combine_eq`, `combineTrees_cons`). The depth that is compared with the limit is computed from the
depths of the trees before there is a chain, and it is the depth of the chain. Each further tree
puts the chain one level down, so a chain is at least as deep as it has trees, and counting the
rules beforehand refuses nothing that would be accepted after reading them.
-/

namespace Rulebook

/-- A chain is at least as deep as it has trees. -/
theorem Tree.length_le_depth_chain (c : Connective) (tree : Tree) (rest : List Tree) :
    (tree :: rest).length ≤ (chain c tree rest).depth := by
  induction rest generalizing tree with
  | nil =>
    rw [depth_eq_height]
    exact tree.height_pos
  | cons next rest ih =>
    have hrest := ih next
    rw [depth_eq_height] at hrest ⊢
    rw [chain, height, List.length_cons]
    omega

namespace Combiner

variable {combiner : Combiner}

/-- What the limit is compared with is the depth of the chain. -/
theorem combinedDepth_eq_depth (c : Connective) (tree : Tree) (rest : List Tree) :
    combinedDepth (tree :: rest) = (Tree.chain c tree rest).depth := by
  rw [Tree.depth_eq_height]
  exact combinedDepth_eq_height c tree rest

/-- Trees are combined to their chain, if that is within the limit. -/
theorem combineTrees_cons {c : Connective} {first : Tree} {rest : List Tree}
    (hc : combiner.strategy.connective (first :: rest) = c) :
    combiner.combineTrees (first :: rest) =
      if (Tree.chain c first rest).depth ≤ combiner.parser.maxDepth then
        .ok (Tree.chain c first rest)
      else .error (.depthExceeded (Tree.chain c first rest).depth combiner.parser.maxDepth) := by
  rw [combineTrees, Parser.checkDepth_bind, hc, joinAll?_cons, combinedDepth_eq_depth c]
  by_cases hle : (Tree.chain c first rest).depth ≤ combiner.parser.maxDepth
  · rw [if_pos hle, if_neg (Nat.not_lt.2 hle)]
    rfl
  · rw [if_neg hle, if_pos (Nat.lt_of_not_le hle)]

/-- Rules are counted, then all read, then combined. -/
theorem combine_eq (combiner : Combiner) (rules : List String) :
    combiner.combine rules =
      if rules = [] then .error noRules
      else if combiner.parser.maxDepth < rules.length then
        .error (.depthExceeded rules.length combiner.parser.maxDepth)
      else rules.mapM combiner.parser.parse >>= combiner.combineTrees := by
  rw [combine]
  cases rules with
  | nil => rfl
  | cons rule rules =>
    rw [List.isEmpty_cons, if_neg Bool.false_ne_true, if_neg (List.cons_ne_nil rule rules)]
    exact Parser.checkDepth_bind ..

variable {rules : List String}

/-- Rules that the limit admits are read before anything else is done with them. -/
theorem combine_of_length_le (hsome : rules ≠ [])
    (hlength : rules.length ≤ combiner.parser.maxDepth) :
    combiner.combine rules = rules.mapM combiner.parser.parse >>= combiner.combineTrees := by
  rw [combine_eq, if_neg hsome, if_neg (Nat.not_lt.2 hlength)]

/-- The first rule that cannot be read is what combining fails with. -/
theorem combine_of_unread {before after : List String} {rule : String} {e : Error}
    (hlength : (before ++ rule :: after).length ≤ combiner.parser.maxDepth)
    (hbefore : ∀ b ∈ before, ∃ tree, combiner.parser.parse b = .ok tree)
    (hrule : combiner.parser.parse rule = .error e) :
    combiner.combine (before ++ rule :: after) = .error e := by
  have hsome : before ++ rule :: after ≠ [] := List.append_ne_nil_of_right_ne_nil _
    (List.cons_ne_nil rule after)
  have hread := Except.mapM_eq_error_iff.2 ⟨before, rule, after, rfl, hrule, hbefore⟩
  rw [combine_of_length_le hsome hlength, hread]
  rfl

/-- Rules that are all read are combined as their trees are. -/
theorem combine_of_read {first : Tree} {rest : List Tree}
    (hlength : rules.length ≤ combiner.parser.maxDepth)
    (hread : rules.map combiner.parser.parse = (first :: rest).map .ok) :
    combiner.combine rules = combiner.combineTrees (first :: rest) := by
  have hsome : rules ≠ [] := by
    rintro rfl
    cases hread
  rw [combine_of_length_le hsome hlength, Except.mapM_eq_ok_iff.2 hread]
  rfl

/-- Rules whose trees are combined are no more than the limit. -/
theorem length_le_of_combineTrees {trees : List Tree} {tree : Tree}
    (hread : rules.map combiner.parser.parse = trees.map .ok)
    (hcombine : combiner.combineTrees trees = .ok tree) :
    rules.length ≤ combiner.parser.maxDepth := by
  obtain ⟨first, rest, rfl, rfl, hle⟩ := combineTrees_eq_ok.1 hcombine
  have hlength : rules.length = (first :: rest).length := by
    have hlengths := congrArg List.length hread
    rw [List.length_map, List.length_map] at hlengths
    exact hlengths
  calc rules.length
    _ = (first :: rest).length := hlength
    _ ≤ (Tree.chain (combiner.strategy.connective (first :: rest)) first rest).depth :=
      Tree.length_le_depth_chain ..
    _ = (Tree.chain (combiner.strategy.connective (first :: rest)) first rest).height :=
      Tree.depth_eq_height _
    _ ≤ combiner.parser.maxDepth := hle

/-- One rule is combined by reading it. -/
theorem combine_singleton (hlimit : 1 ≤ combiner.parser.maxDepth) (rule : String) :
    combiner.combine [rule] = combiner.parser.parse rule := by
  have hlength : [rule].length ≤ combiner.parser.maxDepth := hlimit
  cases hparse : combiner.parser.parse rule with
  | error e =>
    have hfails : combiner.combine ([] ++ [rule]) = .error e :=
      combine_of_unread hlength (fun b hb => nomatch hb) hparse
    exact hfails
  | ok tree =>
    have hdepth : tree.depth ≤ combiner.parser.maxDepth := by
      rw [Tree.depth_eq_height]
      exact (Parser.parse_within hparse).height_le
    have hread : [rule].map combiner.parser.parse = [tree].map .ok := by
      rw [List.map_singleton, List.map_singleton, hparse]
    rw [combine_of_read hlength hread, combineTrees_cons rfl]
    exact if_pos hdepth

/-- **Combining is reading all rules and folding their trees from the right.** With a limit of at
least one level: no rules are an invalid input, and more rules than the limit are too deep by their
number; else the first rule that cannot be read gives its error, and rules that are all read give
the chain of their trees under the connective that the strategy has for them, if it is within the
limit. The depth in the last check is that of the chain, the number of rules is never above the
limit where the chain is within it, and one rule alone is just read. -/
theorem combine_folds (combiner : Combiner) (hlimit : 1 ≤ combiner.parser.maxDepth)
    (rules : List String) :
    (rules = [] → combiner.combine rules = .error (.invalidInput "至少需要一条规则")) ∧
    (combiner.parser.maxDepth < rules.length →
      combiner.combine rules = .error (.depthExceeded rules.length combiner.parser.maxDepth)) ∧
    (rules.length ≤ combiner.parser.maxDepth → ∀ before rule after e,
      rules = before ++ rule :: after →
      (∀ b ∈ before, ∃ tree, combiner.parser.parse b = .ok tree) →
      combiner.parser.parse rule = .error e → combiner.combine rules = .error e) ∧
    (rules.length ≤ combiner.parser.maxDepth → ∀ first rest,
      rules.map combiner.parser.parse = (first :: rest).map .ok →
      ∃ c, c = combiner.strategy.connective (first :: rest) ∧ combiner.combine rules =
        if (Tree.chain c first rest).depth ≤ combiner.parser.maxDepth then
          .ok (Tree.chain c first rest)
        else .error (.depthExceeded (Tree.chain c first rest).depth combiner.parser.maxDepth)) ∧
    (∀ c first rest, combinedDepth (first :: rest) = (Tree.chain c first rest).depth) ∧
    (∀ trees tree, rules.map combiner.parser.parse = trees.map .ok →
      combiner.combineTrees trees = .ok tree → rules.length ≤ combiner.parser.maxDepth) ∧
    ∀ rule, combiner.combine [rule] = combiner.parser.parse rule := by
  refine ⟨?_, ?_, ?_, ?_, combinedDepth_eq_depth, fun trees tree => length_le_of_combineTrees,
    combine_singleton hlimit⟩
  · rintro rfl
    rfl
  · intro hlength
    have hsome : rules ≠ [] := by
      rintro rfl
      exact Nat.not_lt_zero _ hlength
    rw [combine_eq, if_neg hsome, if_pos hlength]
  · rintro hlength before rule after e rfl hbefore hrule
    exact combine_of_unread hlength hbefore hrule
  · intro hlength first rest hread
    refine ⟨_, rfl, ?_⟩
    rw [combine_of_read hlength hread, combineTrees_cons rfl]

/-- Three rules under a limit of three levels, the second of them deeper than the first and the
last: each is within the limit, as is their number, and the chain is not. Of three rules the last
two of which cannot be read, the second gives the error. -/
theorem combine_folds_too_deep :
    1 ≤ (⟨⟨.precedence, 3⟩, .fixedAnd⟩ : Combiner).parser.maxDepth ∧
    ["a = x", "b = y OR c = z", "d = w"].map (⟨.precedence, 3⟩ : Parser).parse =
      [.leaf ⟨"a", .equal, .text "x"⟩,
        .join .or (.leaf ⟨"b", .equal, .text "y"⟩) (.leaf ⟨"c", .equal, .text "z"⟩),
        .leaf ⟨"d", .equal, .text "w"⟩].map .ok ∧
    (⟨⟨.precedence, 3⟩, .fixedAnd⟩ : Combiner).combine ["a = x", "b = y OR c = z", "d = w"] =
      .error (.depthExceeded 4 3) ∧
    (⟨⟨.precedence, 3⟩, .fixedAnd⟩ : Combiner).combine ["a = x", "b = y OR", ""] =
      .error (.danglingConnective "OR" .right) := by
  have hread : ["a = x", "b = y OR c = z", "d = w"].map (⟨.precedence, 3⟩ : Parser).parse =
      [.leaf ⟨"a", .equal, .text "x"⟩,
        .join .or (.leaf ⟨"b", .equal, .text "y"⟩) (.leaf ⟨"c", .equal, .text "z"⟩),
        .leaf ⟨"d", .equal, .text "w"⟩].map .ok := by rfl
  obtain ⟨-, -, -, hcombine, -⟩ := combine_folds ⟨⟨.precedence, 3⟩, .fixedAnd⟩ (by decide)
    ["a = x", "b = y OR c = z", "d = w"]
  obtain ⟨c, rfl, hchain⟩ := hcombine (by decide) _ _ hread
  have hdeep : (⟨⟨.precedence, 3⟩, .fixedAnd⟩ : Combiner).combine
      ["a = x", "b = y OR c = z", "d = w"] = .error (.depthExceeded 4 3) := by
    rw [hchain, Tree.depth_eq_height]
    rfl
  obtain ⟨-, -, hunread, -⟩ := combine_folds ⟨⟨.precedence, 3⟩, .fixedAnd⟩ (by decide)
    ["a = x", "b = y OR", ""]
  have hfirst : ∀ b ∈ ["a = x"], ∃ tree, (⟨.precedence, 3⟩ : Parser).parse b = .ok tree := by
    intro b hb
    obtain rfl := List.mem_singleton.1 hb
    exact ⟨.leaf ⟨"a", .equal, .text "x"⟩, rfl⟩
  exact ⟨by decide, hread, hdeep, hunread (by decide) ["a = x"] "b = y OR" [""] _ rfl hfirst rfl⟩

end Combiner

end Rulebook
