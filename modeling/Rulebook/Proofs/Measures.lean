import Rulebook.Rule.Tree

/-!
# What the walks over a tree compute

The walks keep a stack of subtrees, so what they compute is proved for a whole stack first: the
top of the stack may be taken off once its share is in the result. For a stack with one tree on
it this is the measure by the shape of the tree.
-/

namespace Rulebook.Tree

theorem height_pos (tree : Tree) : 0 < tree.height := by
  cases tree with
  | leaf => exact Nat.one_pos
  | join =>
    rw [height]
    omega

/-- The walk that looks for the depth may take off the top of its stack, once the lowest level
below it is counted. -/
theorem deepest_cons (tree : Tree) (best level : Nat) (rest : List (Tree × Nat)) :
    deepest best ((tree, level) :: rest) =
      deepest (max best (level + tree.height - 1)) rest := by
  induction tree generalizing best level rest with
  | leaf c => rw [deepest, height, Nat.add_sub_cancel]
  | join c left right ihl ihr =>
    have hl := left.height_pos
    have hr := right.height_pos
    rw [deepest, ihr, ihl, height]
    congr 1
    omega

/-- The depth that the walk finds is the height. -/
theorem depth_eq_height (tree : Tree) : tree.depth = tree.height := by
  rw [depth, deepest_cons, deepest]
  omega

/-- A tree is at most one higher than it has joins. -/
theorem height_le_joins (tree : Tree) : tree.height ≤ tree.joins .and + tree.joins .or + 1 := by
  induction tree with
  | leaf => exact Nat.le_refl 1
  | join c left right ihl ihr =>
    rw [height]
    cases c <;> simp only [joins, reduceCtorEq, if_true, if_false] <;> omega

/-! ## Counting along the nodes

The walk visits the nodes in the order of `preorder`, so what is counted along it is counted by
the shape of the tree. -/

theorem walk_cons (tree : Tree) (rest : List Tree) :
    walk (tree :: rest) = tree.preorder ++ walk rest := by
  induction tree generalizing rest with
  | leaf c => rw [walk, preorder, List.singleton_append]
  | join c left right ihl ihr =>
    rw [walk, ihl, ihr, preorder, List.cons_append, List.append_assoc]

/-- The walk visits the subtrees in preorder. -/
theorem nodes_eq_preorder (tree : Tree) : tree.nodes = tree.preorder := by
  rw [nodes, walk_cons, walk, List.append_nil]

/-- The leaves that the walk counts are the conditions. -/
theorem leafCount_eq_length (tree : Tree) : tree.leafCount = tree.conditions.length := by
  rw [leafCount, nodes_eq_preorder]
  induction tree with
  | leaf => rfl
  | join c left right ihl ihr =>
    rw [preorder, List.filter_cons_of_neg Bool.false_ne_true, List.filter_append,
      List.length_append, conditions, List.length_append, ihl, ihr]

/-- A count of joins by their connectives, made along the nodes, adds the joins of the tree to
what was counted before. -/
theorem foldl_preorder {count : Nat × Nat → Tree → Nat × Nat}
    (hleaf : ∀ counts c, count counts (.leaf c) = counts)
    (hand : ∀ counts l r, count counts (.join .and l r) = (counts.1 + 1, counts.2))
    (hor : ∀ counts l r, count counts (.join .or l r) = (counts.1, counts.2 + 1))
    (tree : Tree) (counts : Nat × Nat) :
    tree.preorder.foldl count counts =
      (counts.1 + tree.joins .and, counts.2 + tree.joins .or) := by
  induction tree generalizing counts with
  | leaf c => exact hleaf counts c
  | join c left right ihl ihr =>
    rw [preorder, List.foldl_cons, List.foldl_append, ihl, ihr]
    cases c with
    | and =>
      rw [hand]
      simp only [joins, reduceCtorEq, if_true, if_false]
      exact Prod.ext (by omega) (by omega)
    | or =>
      rw [hor]
      simp only [joins, reduceCtorEq, if_true, if_false]
      exact Prod.ext (by omega) (by omega)

/-- The two counts of joins. -/
theorem connectiveCounts_eq_joins (tree : Tree) :
    tree.connectiveCounts = (tree.joins .and, tree.joins .or) := by
  rw [connectiveCounts, nodes_eq_preorder,
    foldl_preorder (fun _ _ => rfl) (fun _ _ _ => rfl) (fun _ _ _ => rfl), Nat.zero_add,
    Nat.zero_add]

theorem mem_insertName {name other : String} {names : List String} :
    name ∈ insertName other names ↔ name = other ∨ name ∈ names := by
  induction names with
  | nil => rw [insertName, List.mem_singleton, or_iff_left List.not_mem_nil]
  | cons first rest ih =>
    rw [insertName]
    split
    · next heq => rw [heq, List.mem_cons, or_self_left]
    · split
      · rw [List.mem_cons]
      · rw [List.mem_cons, ih, List.mem_cons, or_left_comm]

/-- Names that are collected along the nodes are those of the conditions, and those that were there
before. -/
theorem mem_foldl_preorder {collect : List String → Tree → List String}
    (hleaf : ∀ names c, collect names (.leaf c) = insertName c.field names)
    (hjoin : ∀ names c l r, collect names (.join c l r) = names)
    (tree : Tree) (names : List String) {name : String} :
    name ∈ tree.preorder.foldl collect names ↔
      name ∈ names ∨ ∃ c ∈ tree.conditions, c.field = name := by
  induction tree generalizing names with
  | leaf c =>
    rw [preorder, List.foldl_cons, List.foldl_nil, hleaf, mem_insertName, conditions, or_comm]
    simp [eq_comm]
  | join c left right ihl ihr =>
    rw [preorder, List.foldl_cons, List.foldl_append, hjoin, ihr, ihl, conditions, or_assoc]
    simp only [List.mem_append, or_and_right, exists_or]

/-- The attributes that the walk collects are those of the conditions. -/
theorem mem_attributes {tree : Tree} {name : String} :
    name ∈ tree.attributes ↔ ∃ c ∈ tree.conditions, c.field = name := by
  rw [attributes, nodes_eq_preorder,
    mem_foldl_preorder (fun _ _ => rfl) (fun _ _ _ _ => rfl), or_iff_right List.not_mem_nil]

/-- There is one condition more than there are joins. -/
theorem length_conditions (tree : Tree) :
    tree.conditions.length = tree.joins .and + tree.joins .or + 1 := by
  induction tree with
  | leaf => rfl
  | join c left right ihl ihr =>
    rw [conditions, List.length_append, ihl, ihr]
    cases c <;> simp only [joins, reduceCtorEq, if_true, if_false] <;> omega

end Rulebook.Tree
