import Rulebook.Proofs.Traces

/-!
# Walks over a tree

The measures of a tree are taken along a walk that keeps a stack. A walk is seen here turn by turn
(`Tree.turn?`): a turn visits the top of the stack and puts its two sides there. What every turn
keeps is the nodes that were visited followed by those that the stack stands for, and every turn
makes the stack stand for one node less, even where it grows. So a walk comes to an end whatever the
shape of the tree (`Tree.yields_iff`), and what it has visited then is the preorder.

Preorder is said by places, without a walk: a place stands ahead of the places below it, and where
two places part, the one on the left side stands ahead. The walk visits the places of the tree in
this order, each of them once.
-/

namespace Rulebook.Tree

variable {node tree : Tree} {stack next rest nodes : List Tree}

/-! ## Turns -/

/-- A turn of the walk: the node on top of the stack, and the stack with the two sides of the node
in its place, the left one on top. An empty stack has no turn. -/
def turn? : List Tree → Option (Tree × List Tree)
  | [] => none
  | .leaf c :: rest => some (.leaf c, rest)
  | .join c left right :: rest => some (.join c left right, left :: right :: rest)

/-- Turns from a first stack, by the nodes that they visit, to a last one. -/
inductive Yields : List Tree → List Tree → List Tree → Prop where
  | stop (stack : List Tree) : Yields stack [] stack
  | turn {stack next rest nodes : List Tree} {node : Tree} (h : turn? stack = some (node, next))
      (later : Yields next nodes rest) : Yields stack (node :: nodes) rest

/-- All that a turn can do: a leaf is taken off the stack, or a join is replaced by its sides. -/
theorem turn?_cases (h : turn? stack = some (node, next)) :
    (∃ c, node = .leaf c ∧ stack = node :: next) ∨
    ∃ c left right rest, node = .join c left right ∧ stack = node :: rest ∧
      next = left :: right :: rest := by
  cases stack with
  | nil => cases h
  | cons top rest =>
    cases top with
    | leaf c =>
      cases h
      exact .inl ⟨c, rfl, rfl⟩
    | join c left right =>
      cases h
      exact .inr ⟨c, left, right, rest, rfl, rfl, rfl⟩

/-- A turn visits the first of the nodes that the stack stands for. -/
theorem flatMap_preorder_of_turn? (h : turn? stack = some (node, next)) :
    stack.flatMap preorder = node :: next.flatMap preorder := by
  obtain ⟨c, rfl, rfl⟩ | ⟨c, left, right, rest, rfl, rfl, rfl⟩ := turn?_cases h
  · rfl
  · simp only [List.flatMap_cons, preorder, List.cons_append, List.append_assoc]

/-- After a turn the stack stands for one node less, though it is longer after a join. -/
theorem pending_of_turn? (h : turn? stack = some (node, next)) :
    pending stack = pending next + 1 := by
  obtain ⟨c, rfl, rfl⟩ | ⟨c, left, right, rest, rfl, rfl, rfl⟩ := turn?_cases h
  · rw [pending, size, Nat.add_comm]
  · simp only [pending, size]
    omega

/-- At all times the visited nodes and those that the stack stands for are the same in sum. -/
theorem Yields.flatMap_preorder (h : Yields stack nodes rest) :
    stack.flatMap preorder = nodes ++ rest.flatMap preorder := by
  induction h with
  | stop stack => rfl
  | turn h _ ih => rw [flatMap_preorder_of_turn? h, ih, List.cons_append]

/-- As many turns are left as the stack stands for nodes. -/
theorem Yields.pending_eq (h : Yields stack nodes rest) :
    pending stack = nodes.length + pending rest := by
  induction h with
  | stop stack => exact (Nat.zero_add _).symm
  | turn h _ ih =>
    rw [pending_of_turn? h, ih, List.length_cons]
    omega

/-- The walk takes turns until the stack is empty. -/
theorem yields_walk (stack : List Tree) : Yields stack (walk stack) [] := by
  induction stack using walk.induct with
  | case1 =>
    rw [walk]
    exact .stop []
  | case2 c rest ih =>
    rw [walk]
    exact .turn rfl ih
  | case3 c left right rest ih =>
    rw [walk]
    exact .turn rfl ih

/-- From a tree the turns come to an end, and there is one end only: the nodes of the tree. -/
theorem yields_iff : Yields [tree] nodes [] ↔ nodes = tree.nodes := by
  constructor
  · intro h
    have hall := h.flatMap_preorder
    -- the empty stack stands for nothing, so everything has been visited
    rw [List.flatMap_singleton, List.flatMap_nil, List.append_nil] at hall
    rw [nodes_eq_preorder, hall]
  · rintro rfl
    exact yields_walk [tree]

/-- There is a turn for each node. -/
theorem length_nodes (tree : Tree) : tree.nodes.length = tree.size :=
  (yields_walk [tree]).pending_eq.symm

/-! ## Places in preorder -/

/-- The first place stands ahead of the second in preorder: it is above it, or it is on the left
side where the two part. -/
def Ahead : List Side → List Side → Prop := List.Lex fun s t => s = .left ∧ t = .right

/-- No place stands ahead of itself. -/
theorem not_ahead_self (place : List Side) : ¬Ahead place place := by
  induction place with
  | nil => exact fun h => nomatch h
  | cons side place ih =>
    intro h
    cases h with
    | rel h => cases h.1.symm.trans h.2
    | cons h => exact ih h

/-- The places of a tree: the tree itself, then the places on its left side, then those on its right
side. -/
def places : Tree → List (List Side)
  | .leaf _ => [[]]
  | .join _ left right => [] :: (left.places.map (.left :: ·) ++ right.places.map (.right :: ·))

/-- The places that are listed are those where there is a subtree. -/
theorem mem_places {place : List Side} : place ∈ tree.places ↔ (tree.subtree? place).isSome := by
  induction tree generalizing place with
  | leaf c => cases place <;> simp [places, subtree?]
  | join c left right ihl ihr =>
    cases place with
    | nil => simp [places, subtree?]
    | cons side place => cases side <;> simp [places, subtree?, ihl, ihr]

/-- Each place stands ahead of those that are listed behind it. -/
theorem pairwise_places (tree : Tree) : tree.places.Pairwise Ahead := by
  have hside (side : Side) {below : List (List Side)} (h : below.Pairwise Ahead) :
      (below.map (side :: ·)).Pairwise Ahead :=
    h.map _ fun _ _ hpq => .cons hpq
  induction tree with
  | leaf c => exact List.pairwise_singleton _ _
  | join c left right ihl ihr =>
    rw [places, List.pairwise_cons, List.pairwise_append]
    refine ⟨fun place hplace => ?_, hside .left ihl, hside .right ihr, ?_⟩
    · -- the tree itself is above all other places
      obtain hplace | hplace := List.mem_append.1 hplace
      · obtain ⟨below, -, rfl⟩ := List.mem_map.1 hplace
        exact .nil
      · obtain ⟨below, -, rfl⟩ := List.mem_map.1 hplace
        exact .nil
    · -- places on different sides part at the first step
      intro p hp q hq
      obtain ⟨p, -, rfl⟩ := List.mem_map.1 hp
      obtain ⟨q, -, rfl⟩ := List.mem_map.1 hq
      exact .rel ⟨rfl, rfl⟩

/-- No place is listed twice. -/
theorem places_nodup (tree : Tree) : tree.places.Nodup := by
  refine tree.pairwise_places.imp ?_
  rintro place other h rfl
  exact not_ahead_self place h

/-- The subtrees at the listed places are the nodes in preorder. -/
theorem map_subtree?_places (tree : Tree) :
    (tree.places.map fun place => subtree? place tree) = tree.preorder.map some := by
  induction tree with
  | leaf c => rfl
  | join c left right ihl ihr =>
    rw [places, preorder, List.map_cons, List.map_cons, List.map_append, List.map_append,
      List.map_map, List.map_map, ← ihl, ← ihr]
    rfl

/-! ## Sorted names -/

/-- Names that are sorted without repetition stay so when one is put among them. -/
theorem sorted_insertName {name : String} {names : List String} (h : names.Pairwise (· < ·)) :
    (insertName name names).Pairwise (· < ·) := by
  induction names with
  | nil => exact List.pairwise_singleton _ _
  | cons first names ih =>
    obtain ⟨hfirst, hnames⟩ := List.pairwise_cons.1 h
    rw [insertName]
    split
    · exact h
    · next hne =>
      split
      · next hlt =>
        refine List.pairwise_cons.2 ⟨fun other hother => ?_, h⟩
        obtain rfl | hother := List.mem_cons.1 hother
        · exact hlt
        · exact String.lt_trans hlt (hfirst other hother)
      · next hnot =>
        -- the name goes behind the first one, and so stays above it
        have hgt : first < name :=
          String.not_le.1 fun hle => hne (String.le_antisymm hle (String.not_lt.1 hnot))
        refine List.pairwise_cons.2 ⟨fun other hother => ?_, ih hnames⟩
        obtain rfl | hother := mem_insertName.1 hother
        · exact hgt
        · exact hfirst other hother

/-- The attributes are sorted without repetition. -/
theorem sorted_attributes (tree : Tree) : tree.attributes.Pairwise (· < ·) := by
  rw [attributes]
  refine List.foldlRecOn tree.nodes _ List.Pairwise.nil ?_
  intro names hnames node _
  cases node with
  | leaf c => exact sorted_insertName hnames
  | join c left right => exact hnames

/-! ## Depth and leaves -/

/-- A tree has no more leaves than a full one of its height. -/
theorem length_conditions_le (tree : Tree) :
    tree.conditions.length ≤ Nat.pow 2 (tree.height - 1) := by
  rw [Nat.pow_eq]
  induction tree with
  | leaf c => exact Nat.le_refl 1
  | join c left right ihl ihr =>
    have hl := left.height_pos
    have hr := right.height_pos
    have hdouble : 2 ^ (max left.height right.height - 1) * 2 =
        2 ^ (max left.height right.height) := by
      rw [← Nat.pow_succ]
      congr 1
      omega
    have hleft : 2 ^ (left.height - 1) ≤ 2 ^ (max left.height right.height - 1) :=
      Nat.pow_le_pow_right Nat.two_pos (by omega)
    have hright : 2 ^ (right.height - 1) ≤ 2 ^ (max left.height right.height - 1) :=
      Nat.pow_le_pow_right Nat.two_pos (by omega)
    -- both sides are as full as the higher one allows
    rw [conditions, List.length_append, height, Nat.add_sub_cancel_left]
    omega

/-- **The walks over a tree compute its measures.** Turn by turn the walk over the nodes comes to
its end, in one way only. It visits every place of the tree once and nothing else, a place ahead of
those below it and the left side ahead of the right one. The depth, the number of leaves, the
attributes without repetition and the numbers of joins of each connective that are found along the
walks are those of the shape of the tree. There is one leaf more than there are joins, at least as
many leaves as the tree is deep, and no more than a full tree of that depth has. -/
theorem walks_compute_measures (tree : Tree) :
    (∀ nodes, Yields [tree] nodes [] ↔ nodes = tree.nodes) ∧ tree.nodes.length = tree.size ∧
    (∃ places : List (List Side), places.Nodup ∧ places.Pairwise Ahead ∧
      (∀ place, place ∈ places ↔ (tree.subtree? place).isSome) ∧
      (places.map fun place => subtree? place tree) = tree.nodes.map some) ∧
    tree.nodes = tree.preorder ∧
    tree.depth = tree.height ∧
    tree.leafCount = tree.conditions.length ∧
    (∀ name, name ∈ tree.attributes ↔ ∃ c ∈ tree.conditions, c.field = name) ∧
    tree.attributes.Pairwise (· < ·) ∧
    tree.connectiveCounts = (tree.joins .and, tree.joins .or) ∧
    tree.joins .and + tree.joins .or + 1 = tree.leafCount ∧
    tree.depth ≤ tree.leafCount ∧ tree.leafCount ≤ Nat.pow 2 (tree.depth - 1) := by
  have hcount := tree.leafCount_eq_length
  have hjoins := tree.length_conditions
  have hheight := tree.height_le_joins
  refine ⟨fun nodes => yields_iff, tree.length_nodes, ?_, tree.nodes_eq_preorder,
    tree.depth_eq_height, hcount, fun name => mem_attributes, tree.sorted_attributes,
    tree.connectiveCounts_eq_joins, ?_, ?_, ?_⟩
  · rw [nodes_eq_preorder]
    exact ⟨tree.places, tree.places_nodup, tree.pairwise_places, fun place => mem_places,
      tree.map_subtree?_places⟩
  · omega
  · rw [depth_eq_height]
    omega
  · rw [hcount, depth_eq_height]
    exact tree.length_conditions_le

end Rulebook.Tree
