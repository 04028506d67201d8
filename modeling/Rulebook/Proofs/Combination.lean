import Rulebook.Combining
import Rulebook.Proofs.Grammar

/-!
# Combinations

A combination is a chain that leans to the right, and the depth that is checked before it is built
is the height that it has. With the bounds on the tokens of a rule this gives what all producers
of trees keep: whatever is read or combined under a limit is no higher than the limit and compares
with finite numbers only (`Tree.Within`).
-/

namespace Rulebook

namespace Tree

/-- The first tree joined with the chain of the others. -/
def chain (c : Connective) : Tree → List Tree → Tree
  | tree, [] => tree
  | tree, next :: rest => .join c tree (chain c next rest)

theorem isFinite_chain {c : Connective} {tree : Tree} {rest : List Tree}
    (h : ∀ t ∈ tree :: rest, t.isFinite) : (chain c tree rest).isFinite := by
  induction rest generalizing tree with
  | nil => exact h tree (List.mem_cons_self ..)
  | cons next rest ih =>
    have hrest := ih fun t ht => h t (List.mem_cons_of_mem _ ht)
    rw [chain, isFinite, h tree (List.mem_cons_self ..), hrest]
    rfl

/-- A tree that a limit admits: no higher than the limit and with finite numbers only. -/
structure Within (limit : Nat) (tree : Tree) : Prop where
  height_le : tree.height ≤ limit
  isFinite : tree.isFinite

end Tree

namespace Combiner

theorem joinAll?_cons_cons (c : Connective) (tree next : Tree) (rest : List Tree) :
    joinAll? c (tree :: next :: rest) = (joinAll? c (next :: rest)).map (.join c tree) := by
  unfold joinAll?
  rw [List.reverse_cons]
  cases hrev : (next :: rest).reverse with
  | nil => exact absurd (List.reverse_eq_nil_iff.1 hrev) (List.cons_ne_nil _ _)
  | cons last before =>
    rw [List.cons_append]
    simp only [List.foldl_append, List.foldl_cons, List.foldl_nil, Option.map_some]

/-- Joining from the right gives the chain. -/
theorem joinAll?_cons (c : Connective) (tree : Tree) (rest : List Tree) :
    joinAll? c (tree :: rest) = some (Tree.chain c tree rest) := by
  induction rest generalizing tree with
  | nil => rfl
  | cons next rest ih =>
    rw [joinAll?_cons_cons, ih]
    rfl

theorem foldl_max_cons (first : Nat) (rest : List Nat) :
    (first :: rest).foldl max 0 = max first (rest.foldl max 0) := by
  rw [List.foldl_cons, Nat.max_comm]
  exact List.foldl_assoc

/-- The depth of the last trees of a list, `i` of which are before them. The tree at the end
stands as far down as the one before it. -/
theorem combinedDepth_from (c : Connective) (tree : Tree) (rest : List Tree) (i : Nat) :
    (((tree :: rest).zipIdx i).map fun (t, j) => min (j + 1) (i + rest.length) + t.depth).foldl
      max 0 = i + (Tree.chain c tree rest).height := by
  induction rest generalizing tree i with
  | nil =>
    rw [List.zipIdx_cons, List.map_cons, foldl_max_cons]
    simp [Tree.chain, Tree.depth_eq_height]
  | cons next rest ih =>
    -- the end of the list stays where it is when the count starts one later
    have hlast : i + (next :: rest).length = i + 1 + rest.length := by
      rw [List.length_cons]
      omega
    rw [List.zipIdx_cons, List.map_cons, foldl_max_cons, hlast, ih next (i + 1), Tree.chain,
      Tree.height]
    show max (min (i + 1) (i + 1 + rest.length) + tree.depth) _ = _
    rw [Tree.depth_eq_height]
    omega

/-- The depth that is checked is the height of the chain. -/
theorem combinedDepth_eq_height (c : Connective) (tree : Tree) (rest : List Tree) :
    combinedDepth (tree :: rest) = (Tree.chain c tree rest).height := by
  have h := combinedDepth_from c tree rest 0
  rw [Nat.zero_add, Nat.zero_add] at h
  exact h

/-- Inversion for combining trees: the chain of at least one tree, within the limit. -/
theorem combineTrees_eq_ok {combiner : Combiner} {trees : List Tree} {tree : Tree} :
    combiner.combineTrees trees = .ok tree ↔ ∃ first rest, trees = first :: rest ∧
      tree = Tree.chain (combiner.strategy.connective trees) first rest ∧
      tree.height ≤ combiner.parser.maxDepth := by
  rw [combineTrees, Parser.checkDepth_bind_eq_ok]
  cases trees with
  | nil =>
    refine ⟨?_, ?_⟩
    · rintro ⟨-, h⟩
      cases h
    · rintro ⟨first, rest, h, -⟩
      cases h
  | cons first rest =>
    rw [joinAll?_cons, combinedDepth_eq_height (combiner.strategy.connective (first :: rest))]
    refine ⟨?_, ?_⟩
    · rintro ⟨hle, h⟩
      cases h
      exact ⟨first, rest, rfl, rfl, hle⟩
    · rintro ⟨_, _, h, rfl, hle⟩
      cases h
      exact ⟨hle, rfl⟩

/-- Inversion for combining rules: there are some and no more than the limit, each of them is read,
and the trees are combined. -/
theorem combine_eq_ok {combiner : Combiner} {rules : List String} {tree : Tree} :
    combiner.combine rules = .ok tree ↔ rules ≠ [] ∧ rules.length ≤ combiner.parser.maxDepth ∧
      ∃ trees, rules.mapM combiner.parser.parse = .ok trees ∧
        combiner.combineTrees trees = .ok tree := by
  rw [combine]
  cases rules with
  | nil =>
    refine ⟨?_, ?_⟩
    · intro h
      cases h
    · rintro ⟨h, -⟩
      exact absurd rfl h
  | cons rule rules =>
    rw [List.isEmpty_cons, if_neg Bool.false_ne_true, Parser.checkDepth_bind_eq_ok,
      Except.bind_eq_ok]
    exact (and_iff_right (List.cons_ne_nil _ _)).symm

end Combiner

/-! ## What parsers and combiners build -/

/-- The tree of a rule spells tokens whose connectives the limit admits. -/
theorem Parser.parse_spells {p : Parser} {rule : String} {tree : Tree}
    (h : p.parse rule = .ok tree) :
    ∃ tokens, Parsing.Spells tree tokens ∧ Parsing.joints tokens + 1 ≤ p.maxDepth := by
  obtain ⟨mode, limit⟩ := p
  cases mode with
  | firstMatch =>
    obtain ⟨hle, hmatch⟩ := parse_firstMatch_eq_ok.1 h
    refine ⟨_, Parsing.firstMatch_spells hmatch, ?_⟩
    rw [Parsing.joints_whole]
    exact hle
  | precedence =>
    obtain ⟨hle, hderives⟩ := Parsing.parse_precedence_eq_ok.1 h
    refine ⟨_, hderives.spells, ?_⟩
    rw [Parsing.joints_filter]
    exact Nat.le_trans (Nat.le_max_left ..) hle

/-- What is read is within the limit of the parser. -/
theorem Parser.parse_within {p : Parser} {rule : String} {tree : Tree}
    (h : p.parse rule = .ok tree) : tree.Within p.maxDepth := by
  obtain ⟨tokens, hspells, hle⟩ := parse_spells h
  exact ⟨Nat.le_trans hspells.height_le hle, hspells.isFinite⟩

/-- What is combined is within the limit of the parser. -/
theorem Combiner.combine_within {combiner : Combiner} {rules : List String} {tree : Tree}
    (h : combiner.combine rules = .ok tree) : tree.Within combiner.parser.maxDepth := by
  obtain ⟨-, -, trees, hread, hcombine⟩ := combine_eq_ok.1 h
  obtain ⟨first, rest, rfl, rfl, hle⟩ := combineTrees_eq_ok.1 hcombine
  refine ⟨hle, Tree.isFinite_chain fun tree htree => ?_⟩
  obtain ⟨rule, -, hparse⟩ := Except.exists_of_mem_mapM hread htree
  exact (Parser.parse_within hparse).isFinite

end Rulebook
