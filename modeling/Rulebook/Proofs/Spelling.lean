import Rulebook.Parsing.Parser
import Rulebook.Proofs.Measures
import Rulebook.Proofs.Results

/-!
# What a tree spells

Read from left to right, the leaves and connectives of a tree spell a list of tokens without
parentheses: three words for a leaf, and the connective of a join between what its sides spell.
Whatever the way of reading, the tree of a rule spells the tokens of the rule. So nothing of a
rule is lost, doubled or moved in its tree, and what can be counted on the tokens can be counted
on the tree.
-/

namespace Rulebook

/-- A word never becomes a number that is not finite. -/
theorem Literal.isFinite_ofWord (word : String) : (Literal.ofWord word).isFinite := by
  unfold Literal.ofWord
  split
  · next x _ =>
    split
    · next hfinite => exact hfinite
    · rfl
  · rfl

/-- Holds when no condition of the tree compares with an infinity or with what is no number. -/
def Tree.isFinite : Tree → Bool
  | .leaf c => c.literal.isFinite
  | .join _ left right => left.isFinite && right.isFinite

namespace Parsing

/-- The tree spells the tokens: the words of its leaves and its connectives in their order. -/
inductive Spells : Tree → List Token → Prop where
  | leaf (field : String) (comparison : Comparison) (word : String) :
      Spells (.leaf ⟨field, comparison, .ofWord word⟩)
        [.word field, .word comparison.sign, .word word]
  | join {left right : Tree} {front back : List Token} (connective : Connective) :
      Spells left front → Spells right back →
      Spells (.join connective left right) (front ++ .connective connective :: back)

/-! ## Clauses -/

/-- Inversion for clauses: three words with a comparison between the other two. -/
theorem clause_eq_ok {words : List String} {tree : Tree} (h : clause words = .ok tree) :
    ∃ field comparison word, words = [field, Comparison.sign comparison, word] ∧
      tree = .leaf ⟨field, comparison, .ofWord word⟩ := by
  unfold clause at h
  split at h
  · next field sign word =>
    split at h
    · next comparison hsign =>
      cases h
      exact ⟨field, comparison, word, by rw [Comparison.sign_of_ofWord? hsign], rfl⟩
    · cases h
  · cases h

theorem clause_sign (field : String) (comparison : Comparison) (word : String) :
    clause [field, comparison.sign, word] = .ok (.leaf ⟨field, comparison, .ofWord word⟩) := by
  simp only [clause, Comparison.ofWord?_sign]

theorem Spells.of_clause {words : List String} {tree : Tree} (h : clause words = .ok tree) :
    Spells tree (words.map .word) := by
  obtain ⟨field, comparison, word, rfl, rfl⟩ := clause_eq_ok h
  exact .leaf field comparison word

/-- The sign of a comparison is no connective. -/
theorem ofWord?_sign_eq_none (comparison : Comparison) :
    Connective.ofWord? comparison.sign = none := by
  cases comparison <;> decide

/-! ## Counting -/

@[simp] theorem joints_connective_cons (c : Connective) (rest : List Token) :
    joints (.connective c :: rest) = joints rest + 1 := rfl

theorem joints_append (front back : List Token) :
    joints (front ++ back) = joints front + joints back := by
  rw [joints, List.filter_append, List.length_append]
  rfl

namespace Spells

variable {tree : Tree} {tokens : List Token}

/-- A tree has as many joins as it spells connectives. -/
theorem joins_eq (h : Spells tree tokens) :
    tree.joins .and + tree.joins .or = joints tokens := by
  induction h with
  | leaf => rfl
  | @join left right front back c hl hr ihl ihr =>
    rw [joints_append, joints_connective_cons, ← ihl, ← ihr]
    cases c <;> simp only [Tree.joins, reduceCtorEq, if_true, if_false] <;> omega

/-- A tree is at most one higher than it spells connectives. -/
theorem height_le (h : Spells tree tokens) : tree.height ≤ joints tokens + 1 := by
  rw [← h.joins_eq]
  exact tree.height_le_joins

/-- What has been read from words holds no number that is not finite. -/
theorem isFinite (h : Spells tree tokens) : tree.isFinite := by
  induction h with
  | leaf field comparison word => exact Literal.isFinite_ofWord word
  | join c hl hr ihl ihr =>
    rw [Tree.isFinite, ihl, ihr]
    rfl

end Spells

/-! ## Reading up to the first connective -/

/-- The token of a word that keeps its parentheses. -/
def Token.whole (word : String) : Token :=
  match Connective.ofWord? word with
  | some c => .connective c
  | none => .word word

theorem joints_whole (words : List String) :
    joints (words.map Token.whole) = connectives words := by
  induction words with
  | nil => rfl
  | cons word words ih =>
    have hcons : connectives (word :: words) =
        if (Connective.ofWord? word).isSome then connectives words + 1 else connectives words := by
      rw [connectives, List.filter_cons]
      split <;> rfl
    rw [List.map_cons, Token.whole, hcons]
    cases Connective.ofWord? word with
    | none => exact ih
    | some c => exact congrArg (· + 1) ih

/-- Clauses that are closed spell the given tokens before whatever is hung under them. -/
def ClosedSpells (closed : List (Tree × Connective)) (front : List Token) : Prop :=
  ∀ (tail : Tree) (back : List Token), Spells tail back → Spells (hang closed tail) (front ++ back)

theorem closedSpells_nil : ClosedSpells [] [] := fun _ _ h => h

theorem ClosedSpells.cons {closed : List (Tree × Connective)} {front clause : List Token}
    {left : Tree} {c : Connective} (h : ClosedSpells closed front) (hl : Spells left clause) :
    ClosedSpells ((left, c) :: closed) (front ++ clause ++ [.connective c]) := by
  intro tail back ht
  have hjoin := h _ _ (Spells.join c hl ht)
  rw [List.append_assoc, List.append_assoc]
  exact hjoin

/-- The scan keeps to the words: what is closed, what is open and what is still to come are
spelled in this order. -/
theorem scan_spells {words opened : List String} {closed : List (Tree × Connective)}
    {front : List Token} {tree : Tree} (hclosed : ClosedSpells closed front)
    (h : scan closed opened words = .ok tree) :
    Spells tree (front ++ opened.reverse.map .word ++ words.map Token.whole) := by
  induction words generalizing closed opened front with
  | nil =>
    obtain ⟨tail, hclause, hhang⟩ := Except.bind_eq_ok.1 h
    cases hhang
    rw [List.map_nil, List.append_nil]
    exact hclosed tail _ (.of_clause hclause)
  | cons word rest ih =>
    -- a word goes to the open clause, and a connective closes it
    rw [scan] at h
    split at h
    · next hword =>
      have htoken : Token.whole word = .word word := by rw [Token.whole, hword]
      have hspells := ih hclosed h
      rw [List.reverse_cons, List.map_append, List.append_assoc, List.append_assoc] at hspells
      rw [List.map_cons, htoken, List.append_assoc]
      exact hspells
    · next c hword =>
      have htoken : Token.whole word = .connective c := by rw [Token.whole, hword]
      split at h
      · cases h
      · split at h
        · cases h
        · obtain ⟨left, hclause, hscan⟩ := Except.bind_eq_ok.1 h
          have hspells := ih (hclosed.cons (.of_clause hclause)) hscan
          rw [List.map_cons, htoken]
          simpa using hspells

/-- The tree of words that are read up to the first connective spells them. -/
theorem firstMatch_spells {words : List String} {tree : Tree} (h : firstMatch words = .ok tree) :
    Spells tree (words.map Token.whole) := scan_spells closedSpells_nil h

end Parsing

/-! ## Parsers -/

namespace Parser

/-- What comes after a check of the depth happens only within the limit. -/
theorem checkDepth_bind {α : Type} (p : Parser) (depth : Nat) (next : Except Error α) :
    (p.checkDepth depth >>= fun _ => next) =
      if p.maxDepth < depth then .error (.depthExceeded depth p.maxDepth) else next := by
  rw [checkDepth]
  split <;> rfl

/-- Inversion for a check of the depth. -/
theorem checkDepth_bind_eq_ok {α : Type} {p : Parser} {depth : Nat} {next : Except Error α}
    {a : α} : (p.checkDepth depth >>= fun _ => next) = .ok a ↔
      depth ≤ p.maxDepth ∧ next = .ok a := by
  rw [checkDepth_bind]
  split
  · next hlt =>
    refine ⟨?_, ?_⟩
    · intro h
      cases h
    · rintro ⟨hle, -⟩
      omega
  · next hlt => exact ⟨fun h => ⟨by omega, h⟩, fun h => h.2⟩

/-- What is read up to the first connective: blank rules have no clause, and so the check for them
is one that the clauses make again. -/
theorem parse_firstMatch_eq_ok {limit : Nat} {rule : String} {tree : Tree} :
    (⟨.firstMatch, limit⟩ : Parser).parse rule = .ok tree ↔
      Parsing.connectives (Text.words rule) + 1 ≤ limit ∧
        Parsing.firstMatch (Text.words rule) = .ok tree := by
  rw [parse]
  split
  · next hblank =>
    rw [Text.words_eq_nil_iff.2 hblank]
    refine ⟨?_, ?_⟩
    · intro h
      cases h
    · rintro ⟨-, h⟩
      cases h
  · exact checkDepth_bind_eq_ok

end Parser

end Rulebook
