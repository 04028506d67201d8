import Mathlib.Data.List.Basic
import Rulebook.Proofs.CombinedMeaning
import Rulebook.Proofs.FirstConnective
import Rulebook.Proofs.Tokens

/-!
# Rules that both ways of reading accept

A rule none of whose words has a parenthesis at its outside has one token for each word, and both
ways of reading ask the same of it: that its words climb, clause by clause. Up to the first
connective they give a ladder, which leans to the right; with precedence they give a tree whose
conjunctions stand below its disjunctions and which leans to the left.

The two trees come from each other by turning joins around the conditions between them, so they have
the same conditions in the same order and as many joins of each kind (`Tree.Alike`). This is enough
for what they mean as long as all joins have one connective (`Tree.meaning_of_uniform`), and enough
for them to be one tree if there is at most one join.
-/

namespace Rulebook

/-! ## Trees under one connective -/

/-- Both connectives are associative: it does not matter where many truths are parted. -/
theorem Connective.applyAll_append (c : Connective) (front back : List Bool) :
    c.applyAll (front ++ back) = c.apply (c.applyAll front) (c.applyAll back) := by
  cases c with
  | and => exact List.all_append
  | or => exact List.any_append

namespace Tree

variable {record : Json} {c d : Connective}

/-- No join of the tree has another connective. -/
def Uniform (c : Connective) (tree : Tree) : Prop := ∀ d, d ≠ c → tree.joins d = 0

theorem Uniform.join {left right : Tree} (h : Uniform c (join d left right)) :
    d = c ∧ Uniform c left ∧ Uniform c right := by
  have hsum (e : Connective) (he : e ≠ c) :
      (if d = e then 1 else 0) + left.joins e + right.joins e = 0 := h e he
  refine ⟨?_, fun e he => ?_, fun e he => ?_⟩
  · by_cases hd : d = c
    · exact hd
    · have := hsum d hd
      rw [if_pos rfl] at this
      omega
  · have := hsum e he
    omega
  · have := hsum e he
    omega

/-- Under one connective the shape of a tree does not matter for its truth. -/
theorem meaning_of_uniform {tree : Tree} (h : Uniform c tree) :
    tree.meaning record = c.applyAll (tree.conditions.map (·.holdsOf record)) := by
  induction tree with
  | leaf condition => cases c <;> simp [meaning, conditions, Connective.applyAll]
  | join d left right ihl ihr =>
    obtain ⟨rfl, hl, hr⟩ := h.join
    rw [meaning, ihl hl, ihr hr, conditions, List.map_append, Connective.applyAll_append]

/-- Trees with the same conditions and the same truth are evaluated alike, up to the lines of a
trace. -/
theorem evaluate_untraced_congr {a b : Tree} (hconditions : a.conditions = b.conditions)
    (hmeaning : a.meaning record = b.meaning record) (traced : Bool) :
    (a.evaluate traced record).map untraced = (b.evaluate traced record).map untraced := by
  have hfirst : a.firstMissing? record = b.firstMissing? record := by
    rw [firstMissing?, firstMissing?, hconditions]
  have hholding : a.holding record = b.holding record := by
    rw [holding, holding, hconditions]
  rw [evaluate_eq, evaluate_eq, hfirst]
  cases b.firstMissing? record with
  | some missing => rfl
  | none =>
    simp only [Except.map, untraced, outcome, hmeaning, hholding]

/-! ## Turning joins -/

/-- The trees have the same conditions in the same order, and as many joins with each connective. -/
structure Alike (a b : Tree) : Prop where
  conditions_eq : a.conditions = b.conditions
  joins_eq : ∀ c, a.joins c = b.joins c

namespace Alike

variable {a b l m r s : Tree}

theorem refl (a : Tree) : Alike a a := ⟨rfl, fun _ => rfl⟩

theorem trans {t : Tree} (h : Alike a b) (h' : Alike b t) : Alike a t :=
  ⟨h.conditions_eq.trans h'.conditions_eq, fun c => (h.joins_eq c).trans (h'.joins_eq c)⟩

theorem symm (h : Alike a b) : Alike b a := ⟨h.conditions_eq.symm, fun c => (h.joins_eq c).symm⟩

theorem join (c : Connective) (hl : Alike l m) (hr : Alike r s) :
    Alike (.join c l r) (.join c m s) := by
  refine ⟨?_, fun d => ?_⟩
  · rw [conditions, conditions, hl.conditions_eq, hr.conditions_eq]
  · rw [joins, joins, hl.joins_eq, hr.joins_eq]

/-- A join on the left side of another may be turned so that the other is on its right side. -/
theorem turn (c d : Connective) (l m r : Tree) :
    Alike (.join c (.join d l m) r) (.join d l (.join c m r)) := by
  refine ⟨?_, fun e => ?_⟩
  · simp only [conditions, List.append_assoc]
  · simp only [joins]
    omega

theorem connectiveCounts_eq (h : Alike a b) : a.connectiveCounts = b.connectiveCounts := by
  rw [connectiveCounts_eq_joins, connectiveCounts_eq_joins, h.joins_eq, h.joins_eq]

theorem uniform (h : Alike a b) (ha : Uniform c a) : Uniform c b :=
  fun d hd => (h.joins_eq d).symm.trans (ha d hd)

/-- Under one connective trees that are alike are evaluated alike. -/
theorem evaluate_eq (h : Alike a b) (ha : Uniform c a) (traced : Bool) (record : Json) :
    (a.evaluate traced record).map untraced = (b.evaluate traced record).map untraced := by
  refine evaluate_untraced_congr h.conditions_eq ?_ traced
  rw [meaning_of_uniform ha, meaning_of_uniform (h.uniform ha), h.conditions_eq]

end Alike

/-- Without a join there is only a condition. -/
theorem eq_leaf_of_joins {tree : Tree} (h : tree.joins .and + tree.joins .or = 0) :
    ∃ condition, tree = .leaf condition := by
  cases tree with
  | leaf condition => exact ⟨condition, rfl⟩
  | join c left right => cases c <;> simp [joins] at h

/-- One join has conditions on both of its sides. -/
theorem eq_join_of_joins {tree : Tree} (h : tree.joins .and + tree.joins .or = 1) :
    ∃ c x y, tree = .join c (.leaf x) (.leaf y) := by
  cases tree with
  | leaf condition => cases h
  | join c left right =>
    have hsides : left.joins .and + left.joins .or = 0 ∧
        right.joins .and + right.joins .or = 0 := by
      cases c <;> simp only [joins, reduceCtorEq, if_true, if_false] at h <;> omega
    obtain ⟨x, rfl⟩ := eq_leaf_of_joins hsides.1
    obtain ⟨y, rfl⟩ := eq_leaf_of_joins hsides.2
    exact ⟨c, x, y, rfl⟩

/-- With at most one join there is nothing to turn. -/
theorem Alike.eq_of_joins_le_one {a b : Tree} (h : Alike a b)
    (hle : a.joins .and + a.joins .or ≤ 1) : a = b := by
  have hjoins : b.joins .and + b.joins .or = a.joins .and + a.joins .or := by
    rw [h.joins_eq, h.joins_eq]
  obtain hnone | hone : a.joins .and + a.joins .or = 0 ∨ a.joins .and + a.joins .or = 1 := by omega
  · obtain ⟨x, rfl⟩ := eq_leaf_of_joins hnone
    obtain ⟨y, rfl⟩ := eq_leaf_of_joins (hjoins.trans hnone)
    rw [List.singleton_inj.1 h.conditions_eq]
  · obtain ⟨c, x, y, rfl⟩ := eq_join_of_joins hone
    obtain ⟨d, v, w, rfl⟩ := eq_join_of_joins (hjoins.trans hone)
    obtain ⟨rfl, hlast⟩ := List.cons.inj h.conditions_eq
    obtain rfl := List.singleton_inj.1 hlast
    -- the connective is the one of which there is a join
    obtain rfl : d = c := by simpa [joins] using h.joins_eq c
    rfl

end Tree

namespace Parsing

/-! ## Words that climb

Climbing is what the two ways of reading have in common. Whatever spells the words has turned joins
of their ladder, and with precedence they are read from any level on. -/

/-- A condition and a ladder below the end of another ladder: the join of the two is turned down to
its place. -/
theorem alike_ladder_append (steps : List (Condition × Connective)) (middle : Condition)
    (c : Connective) (below : List (Condition × Connective)) (last : Condition) :
    Tree.Alike (.join c (Tree.ladder middle steps) (Tree.ladder last below))
      (Tree.ladder last (steps ++ (middle, c) :: below)) := by
  induction steps with
  | nil => exact .refl _
  | cons step steps ih => exact .trans (.turn c step.2 _ _ _) (.join step.2 (.refl _) ih)

/-- Words that climb and words that climb behind them. -/
theorem Climbs.append {front back : List String} {steps below : List (Condition × Connective)}
    {middle last : Condition} (hf : Climbs front steps middle) (c : Connective)
    (hb : Climbs back below last) :
    Climbs (front ++ c.word :: back) (steps ++ (middle, c) :: below) last := by
  induction hf with
  | last comparison hfield hword => exact .step comparison c hfield hword hb
  | step comparison d hfield hword _ ih => exact .step comparison d hfield hword ih

/-- A word is a whole token only if it is that word and no connective. -/
theorem whole_eq_word {text word : String} (h : Token.whole text = .word word) :
    text = word ∧ Connective.ofWord? word = none := by
  unfold Token.whole at h
  split at h
  · cases h
  · next hnone =>
    cases h
    exact ⟨rfl, hnone⟩

/-- A connective is a whole token only of its own word. -/
theorem whole_eq_connective {text : String} {c : Connective}
    (h : Token.whole text = .connective c) : text = c.word := by
  unfold Token.whole at h
  split at h
  · next hsome =>
    cases h
    exact (Connective.word_of_ofWord? hsome).symm
  · cases h

/-- Words that a tree spells climb, and the tree is their ladder up to turned joins. -/
theorem Spells.climbs {tree : Tree} {words : List String}
    (h : Spells tree (words.map Token.whole)) :
    ∃ steps last, Climbs words steps last ∧ Tree.Alike tree (Tree.ladder last steps) := by
  generalize htokens : words.map Token.whole = tokens at h
  induction h generalizing words with
  | leaf field comparison word =>
    obtain ⟨first, rest, rfl, hfirst, hrest⟩ := List.map_eq_cons_iff.1 htokens
    obtain ⟨second, rest, rfl, hsecond, hrest⟩ := List.map_eq_cons_iff.1 hrest
    obtain ⟨third, rest, rfl, hthird, hrest⟩ := List.map_eq_cons_iff.1 hrest
    obtain rfl := List.map_eq_nil_iff.1 hrest
    obtain ⟨rfl, hfield⟩ := whole_eq_word hfirst
    obtain ⟨rfl, -⟩ := whole_eq_word hsecond
    obtain ⟨rfl, hword⟩ := whole_eq_word hthird
    exact ⟨[], _, .last comparison hfield hword, .refl _⟩
  | join c _ _ ihl ihr =>
    obtain ⟨front, behind, rfl, hfront, hbehind⟩ := List.map_eq_append_iff.1 htokens
    obtain ⟨middle, back, rfl, hmiddle, hback⟩ := List.map_eq_cons_iff.1 hbehind
    obtain rfl := whole_eq_connective hmiddle
    obtain ⟨steps, x, hsteps, hleft⟩ := ihl hfront
    obtain ⟨below, y, hbelow, hright⟩ := ihr hback
    exact ⟨_, y, hsteps.append c hbelow,
      .trans (.join c hleft hright) (alike_ladder_append steps x c below y)⟩

theorem map_whole_clause {field word : String} (comparison : Comparison)
    (hfield : Connective.ofWord? field = none) (hword : Connective.ofWord? word = none) :
    [field, comparison.sign, word].map Token.whole =
      [.word field, .word comparison.sign, .word word] := by
  simp only [List.map_cons, List.map_nil, Token.whole, hfield, hword, ofWord?_sign_eq_none]

theorem whole_connective (c : Connective) : Token.whole c.word = .connective c := by
  simp only [Token.whole, Connective.ofWord?_word]

/-- A level may go on with either connective after a part. -/
theorem LevelReads.connective {level : Level} {front tokens : List Token} {tree : Tree}
    (hl : LevelReads level front) (h : Derives .part tokens tree) (c : Connective) :
    ∃ next, LevelReads next (front ++ tokens ++ [.connective c]) := by
  cases c with
  | and => exact ⟨_, hl.and h⟩
  | or => exact ⟨_, hl.or h⟩

/-- With precedence words that climb are read, whatever the level holds before them. -/
theorem LevelReads.derives_climbs {level : Level} {front : List Token} {words : List String}
    {steps : List (Condition × Connective)} {last : Condition} (hl : LevelReads level front)
    (h : Climbs words steps last) :
    ∃ tree, Derives .disjunction (front ++ words.map Token.whole) tree := by
  induction h generalizing level front with
  | @last field word comparison hfield hword =>
    rw [map_whole_clause comparison hfield hword]
    exact ⟨_, hl.close (.clause field comparison word)⟩
  | @step field word comparison c rest steps last hfield hword hrest ih =>
    obtain ⟨next, hnext⟩ := hl.connective (.clause field comparison word) c
    obtain ⟨tree, htree⟩ := ih hnext
    rw [← map_whole_clause comparison hfield hword, ← whole_connective, List.append_assoc,
      List.append_assoc] at htree
    exact ⟨tree, htree⟩

/-! ## Rules without parentheses -/

/-- No word of the rule has a parenthesis at its outside. -/
def Unwrapped (rule : String) : Prop :=
  ∀ word ∈ Text.words rule, word.toList.head? ≠ some '(' ∧ word.toList.getLast? ≠ some ')'

/-- The tokens of a rule without parentheses are its words. -/
theorem Unwrapped.ofRule {rule : String} (h : Unwrapped rule) :
    Token.ofRule rule = (Text.words rule).map Token.whole := by
  have hword (word : String) (hmem : word ∈ Text.words rule) :
      Token.ofWord word = [Token.whole word] := by
    obtain ⟨hhead, hlast⟩ := h word hmem
    have hne : word.toList.isEmpty = false :=
      List.isEmpty_eq_false_iff.2 (Text.ne_nil_of_mem_words hmem)
    rw [Token.ofWord_of_ends hhead hlast, Token.ofCore, hne, String.ofList_toList, Token.whole]
    cases Connective.ofWord? word <;> rfl
  rw [Token.ofRule, List.flatMap_congr hword, ← List.map_eq_flatMap]

/-- Words that are whole tokens open no parenthesis. -/
theorem nesting_whole (opened : Nat) (words : List String) :
    nesting opened (words.map Token.whole) = opened := by
  induction words with
  | nil => rfl
  | cons word words ih =>
    rw [List.map_cons, Token.whole]
    cases Connective.ofWord? word with
    | none => exact ih
    | some c => exact ih

/-- Without parentheses both ways of reading bound the depth alike. -/
theorem depthBound_whole (words : List String) :
    depthBound (words.map Token.whole) = connectives words + 1 := by
  rw [depthBound, nesting_whole, joints_whole]
  exact Nat.max_eq_left (Nat.zero_le _)

/-- Without parentheses a tree that is derived spells all the tokens. -/
theorem Derives.spells_whole {k : Phrase} {words : List String} {tree : Tree}
    (h : Derives k (words.map Token.whole) tree) : Spells tree (words.map Token.whole) := by
  have hall : ∀ token ∈ words.map Token.whole, !token.isParenthesis := by
    intro token htoken
    obtain ⟨word, -, rfl⟩ := List.mem_map.1 htoken
    rw [Token.whole]
    cases Connective.ofWord? word <;> rfl
  have hspells := h.spells
  rwa [List.filter_eq_self.2 hall] at hspells

/-- A connective that is not among the words is at no join of a tree that spells them. -/
theorem Spells.joins_eq_zero {tree : Tree} {tokens : List Token} {c : Connective}
    (h : Spells tree tokens) (hc : .connective c ∉ tokens) : tree.joins c = 0 := by
  induction h with
  | leaf => rfl
  | join d _ _ ihl ihr =>
    simp only [List.mem_append, List.mem_cons, not_or] at hc
    obtain ⟨hfront, hne, hback⟩ := hc
    have hd : d ≠ c := fun heq => hne (congrArg Token.connective heq.symm)
    rw [Tree.joins, if_neg hd, ihl hfront, ihr hback]

/-- Without parentheses both ways of reading accept the rules whose words climb, and there is no
limit that only one of them keeps to. -/
theorem Unwrapped.accepted_iff {rule : String} (h : Unwrapped rule) (limit : Nat) :
    (∃ tree, (⟨.firstMatch, limit⟩ : Parser).parse rule = .ok tree) ↔
      ∃ tree, (⟨.precedence, limit⟩ : Parser).parse rule = .ok tree := by
  simp only [Parser.parse_firstMatch_eq_ok, parse_precedence_eq_ok, h.ofRule, depthBound_whole,
    firstMatch_eq_split, exists_and_left]
  refine and_congr_right fun _ => ⟨?_, ?_⟩
  · rintro ⟨tree, hsplit⟩
    obtain ⟨steps, last, hclimbs, -⟩ := split_eq_ok_iff.1 hsplit
    exact levelReads_start.derives_climbs hclimbs
  · rintro ⟨tree, hderives⟩
    obtain ⟨steps, last, hclimbs, -⟩ := hderives.spells_whole.climbs
    exact ⟨_, hclimbs.split⟩

/-- The trees that the two ways of reading give come from each other by turning joins. -/
theorem Unwrapped.alike {rule : String} (h : Unwrapped rule) {limit : Nat} {a b : Tree}
    (ha : (⟨.firstMatch, limit⟩ : Parser).parse rule = .ok a)
    (hb : (⟨.precedence, limit⟩ : Parser).parse rule = .ok b) : Tree.Alike a b := by
  obtain ⟨-, hmatch⟩ := Parser.parse_firstMatch_eq_ok.1 ha
  obtain ⟨-, hderives⟩ := parse_precedence_eq_ok.1 hb
  rw [h.ofRule] at hderives
  obtain ⟨steps, last, hclimbs, halike⟩ := hderives.spells_whole.climbs
  rw [firstMatch_eq_split, hclimbs.split] at hmatch
  cases hmatch
  exact halike.symm

/-- A connective whose word the rule does not have is at no join of its tree. -/
theorem joins_eq_zero_of_parse {rule : String} {limit : Nat} {tree : Tree} {c : Connective}
    (h : (⟨.firstMatch, limit⟩ : Parser).parse rule = .ok tree)
    (hc : c.word ∉ Text.words rule) : tree.joins c = 0 := by
  obtain ⟨-, hmatch⟩ := Parser.parse_firstMatch_eq_ok.1 h
  refine (firstMatch_spells hmatch).joins_eq_zero fun hmem => ?_
  obtain ⟨word, hword, hwhole⟩ := List.mem_map.1 hmem
  exact hc (whole_eq_connective hwhole ▸ hword)

/-- **Without parentheses both ways of reading agree.** If no word of a rule has a parenthesis at
its outside, then under any limit it is accepted up to the first connective exactly if it is
accepted with precedence. The two trees have the same conditions from left to right and as many
joins of each kind. They are one tree if the rule has at most one connective; and if it lacks the
word of one of the two connectives, the trees give the same truth and the same conditions that hold,
or the same error, on every record. -/
theorem modes_agree {rule : String} (h : Unwrapped rule) (limit : Nat) :
    ((∃ tree, (⟨.firstMatch, limit⟩ : Parser).parse rule = .ok tree) ↔
      ∃ tree, (⟨.precedence, limit⟩ : Parser).parse rule = .ok tree) ∧
    ∀ a b, (⟨.firstMatch, limit⟩ : Parser).parse rule = .ok a →
      (⟨.precedence, limit⟩ : Parser).parse rule = .ok b →
      a.conditions = b.conditions ∧ a.connectiveCounts = b.connectiveCounts ∧
      (connectives (Text.words rule) ≤ 1 → a = b) ∧
      ("AND" ∉ Text.words rule ∨ "OR" ∉ Text.words rule → ∀ (traced : Bool) (record : Json),
        (a.evaluate traced record).map Tree.untraced =
          (b.evaluate traced record).map Tree.untraced) := by
  refine ⟨h.accepted_iff limit, fun a b ha hb => ?_⟩
  have halike := h.alike ha hb
  refine ⟨halike.conditions_eq, halike.connectiveCounts_eq, fun hle => ?_,
    fun hone traced record => ?_⟩
  · obtain ⟨-, hmatch⟩ := Parser.parse_firstMatch_eq_ok.1 ha
    refine halike.eq_of_joins_le_one ?_
    rw [(firstMatch_spells hmatch).joins_eq, joints_whole]
    exact hle
  · have huniform : ∃ c, Tree.Uniform c a := by
      rcases hone with hand | hor
      · refine ⟨.or, fun d hd => joins_eq_zero_of_parse ha ?_⟩
        cases d with
        | and => exact hand
        | or => exact absurd rfl hd
      · refine ⟨.and, fun d hd => joins_eq_zero_of_parse ha ?_⟩
        cases d with
        | and => exact absurd rfl hd
        | or => exact hor
    obtain ⟨c, hc⟩ := huniform
    exact halike.evaluate_eq hc traced record

/-- Two connectives of one kind, which lean to different sides, and one connective, which cannot. -/
theorem modes_agree_leaning :
    ((⟨.firstMatch, 3⟩ : Parser).parse "a = x OR b = y OR c = z" = .ok
        (.join .or (.leaf ⟨"a", .equal, .text "x"⟩)
          (.join .or (.leaf ⟨"b", .equal, .text "y"⟩) (.leaf ⟨"c", .equal, .text "z"⟩))) ∧
      (⟨.precedence, 3⟩ : Parser).parse "a = x OR b = y OR c = z" = .ok
        (.join .or (.join .or (.leaf ⟨"a", .equal, .text "x"⟩) (.leaf ⟨"b", .equal, .text "y"⟩))
          (.leaf ⟨"c", .equal, .text "z"⟩)) ∧
      ∀ record, ((Tree.join .or (.leaf ⟨"a", .equal, .text "x"⟩) (.join .or
          (.leaf ⟨"b", .equal, .text "y"⟩) (.leaf ⟨"c", .equal, .text "z"⟩))).evaluate true
            record).map Tree.untraced =
        ((Tree.join .or (.join .or (.leaf ⟨"a", .equal, .text "x"⟩)
          (.leaf ⟨"b", .equal, .text "y"⟩)) (.leaf ⟨"c", .equal, .text "z"⟩)).evaluate true
            record).map Tree.untraced) ∧
    ∃ tree, (⟨.firstMatch, 2⟩ : Parser).parse "a = x AND b = y" = .ok tree ∧
      (⟨.precedence, 2⟩ : Parser).parse "a = x AND b = y" = .ok tree := by
  have hor : Unwrapped "a = x OR b = y OR c = z" := by
    unfold Unwrapped
    decide
  have hand : Unwrapped "a = x AND b = y" := by
    unfold Unwrapped
    decide
  refine ⟨⟨rfl, rfl, ?_⟩, ?_⟩
  · intro record
    obtain ⟨-, -, -, hagree⟩ := (modes_agree hor 3).2 _ _ rfl rfl
    exact hagree (.inl (by decide)) true record
  · obtain ⟨hiff, htrees⟩ := modes_agree hand 2
    obtain ⟨a, ha⟩ : ∃ a, (⟨.firstMatch, 2⟩ : Parser).parse "a = x AND b = y" = .ok a := ⟨_, rfl⟩
    obtain ⟨b, hb⟩ := hiff.1 ⟨a, ha⟩
    obtain ⟨-, -, hequal, -⟩ := htrees a b ha hb
    rw [← hequal (by decide)] at hb
    exact ⟨a, ha, hb⟩

end Parsing

end Rulebook
