import Rulebook.Proofs.Spelling

/-!
# Rules read up to the first connective

Reading up to the first connective is a recursion, `split`, that is carried out as a loop, `scan`.
The loop keeps the clauses it has closed and hangs them over the tree at the end; at every moment
it is as if the recursion were still to be done on the words since the last connective
(`scan_eq_map_split`).

What the recursion accepts can be seen from the places of the words alone. A clause has three words
and a connective follows each clause but the last, so every fourth word is a connective and no other
word is (`WellPlaced`), and the tree leans to the right with one clause after the other
(`Tree.ladder`). `Climbs` says both at once, along the words.
-/

namespace Rulebook

/-- The tree that leans to the right: conditions with the connective after each, and the last
condition. -/
def Tree.ladder (last : Condition) : List (Condition × Connective) → Tree
  | [] => .leaf last
  | (condition, connective) :: rest => .join connective (.leaf condition) (ladder last rest)

theorem Tree.height_ladder (last : Condition) (steps : List (Condition × Connective)) :
    (ladder last steps).height = steps.length + 1 := by
  induction steps with
  | nil => rfl
  | cons step steps ih =>
    rw [ladder, height, ih, height, List.length_cons]
    omega

namespace Parsing

/-! ## Cutting at the first connective -/

/-- None of the words is a connective. -/
def Free (words : List String) : Prop := ∀ word ∈ words, Connective.ofWord? word = none

theorem free_nil : Free [] := fun _ h => nomatch h

theorem Free.cons {word : String} {words : List String} (hword : Connective.ofWord? word = none)
    (h : Free words) : Free (word :: words) := List.forall_mem_cons.2 ⟨hword, h⟩

theorem Free.reverse {words : List String} (h : Free words) : Free words.reverse :=
  fun word hword => h word (List.mem_reverse.1 hword)

/-- Without a connective there is nothing to cut. -/
theorem Free.cut? {words : List String} (h : Free words) : Parsing.cut? words = none := by
  induction words with
  | nil => rfl
  | cons word words ih =>
    obtain ⟨hword, hrest⟩ := List.forall_mem_cons.1 h
    simp only [Parsing.cut?, hword, ih hrest, Option.map_none]

/-- The first connective is where the words are cut. -/
theorem Free.cut?_append {front : List String} (h : Free front) (c : Connective)
    (rest : List String) : Parsing.cut? (front ++ c.word :: rest) = some (front, c, rest) := by
  induction front with
  | nil => simp only [List.nil_append, Parsing.cut?, Connective.ofWord?_word]
  | cons word front ih =>
    obtain ⟨hword, hfront⟩ := List.forall_mem_cons.1 h
    simp only [List.cons_append, Parsing.cut?, hword, ih hfront, Option.map_some]

/-- Words either have no connective or are cut at the first one. -/
theorem free_or_cut (words : List String) :
    Free words ∨ ∃ front c rest, Free front ∧ words = front ++ Connective.word c :: rest := by
  induction words with
  | nil => exact .inl free_nil
  | cons word words ih =>
    cases hword : Connective.ofWord? word with
    | some c =>
      refine .inr ⟨[], c, words, free_nil, ?_⟩
      rw [Connective.word_of_ofWord? hword, List.nil_append]
    | none =>
      rcases ih with hfree | ⟨front, c, rest, hfront, rfl⟩
      · exact .inl (.cons hword hfree)
      · exact .inr ⟨word :: front, c, rest, .cons hword hfront, rfl⟩

/-! ## The recursion -/

/-- Words without a connective are a clause. -/
theorem split_of_free {words : List String} (h : Free words) : split words = clause words := by
  have hcut := h.cut?
  rw [split]
  split
  · rfl
  · next heq =>
    rw [hcut] at heq
    cases heq

/-- Words with a connective are cut at the first one: nothing before it is the first fault, nothing
behind it the second, and then the clause before it is read and the rule behind it. -/
theorem split_append {front : List String} (h : Free front) (c : Connective)
    (rest : List String) : split (front ++ c.word :: rest) =
      if front.isEmpty then .error (.danglingConnective c.word .left)
      else if rest.isEmpty then .error (.danglingConnective c.word .right)
      else do
        let first ← clause front
        return .join c first (← split rest) := by
  have hcut := h.cut?_append c rest
  rw [split]
  split
  · next heq =>
    rw [hcut] at heq
    cases heq
  · next heq =>
    rw [hcut] at heq
    cases heq
    rfl

/-! ## The loop -/

theorem scan_word {word : String} (hword : Connective.ofWord? word = none)
    (closed : List (Tree × Connective)) (opened rest : List String) :
    scan closed opened (word :: rest) = scan closed (word :: opened) rest := by
  simp only [scan, hword]

theorem scan_connective (c : Connective) (closed : List (Tree × Connective))
    (opened rest : List String) : scan closed opened (c.word :: rest) =
      if opened.isEmpty then .error (.danglingConnective c.word .left)
      else if rest.isEmpty then .error (.danglingConnective c.word .right)
      else clause opened.reverse >>= fun left => scan ((left, c) :: closed) [] rest := by
  simp only [scan, Connective.ofWord?_word]

/-- The loop does what is left of the recursion and hangs the closed clauses over the result. The
open words go on with the words to come, and have no connective among them. -/
theorem scan_eq_map_split (closed : List (Tree × Connective)) {opened : List String}
    (h : Free opened) (words : List String) :
    scan closed opened words = (split (opened.reverse ++ words)).map (hang closed) := by
  induction words generalizing closed opened with
  | nil =>
    rw [scan, List.append_nil, split_of_free h.reverse]
    cases clause opened.reverse with
    | error e => rfl
    | ok tree => rfl
  | cons word rest ih =>
    cases hword : Connective.ofWord? word with
    | none =>
      have hopened := ih closed (h.cons hword)
      rw [List.reverse_cons, List.append_assoc, List.singleton_append] at hopened
      rw [scan_word hword]
      exact hopened
    | some c =>
      obtain rfl := Connective.word_of_ofWord? hword
      rw [scan_connective, split_append h.reverse, List.isEmpty_reverse]
      split
      · rfl
      · split
        · rfl
        · cases clause opened.reverse with
          | error e => rfl
          | ok left =>
            -- the clause is closed, and the words behind it are a rule of their own
            have hrest := ih ((left, c) :: closed) free_nil
            rw [List.reverse_nil, List.nil_append] at hrest
            rw [Except.ok_bind, Except.ok_bind, hrest]
            cases split rest with
            | error e => rfl
            | ok tree => rfl

/-- The loop is the recursion. -/
theorem firstMatch_eq_split (words : List String) : firstMatch words = split words := by
  rw [firstMatch, scan_eq_map_split [] free_nil, List.reverse_nil, List.nil_append]
  cases split words with
  | error e => rfl
  | ok tree => rfl

/-! ## What is accepted -/

/-- The words are clauses of three words each, with the conditions and connectives of the steps
first and then the last condition. -/
inductive Climbs : List String → List (Condition × Connective) → Condition → Prop where
  | last {field word : String} (comparison : Comparison) :
      Connective.ofWord? field = none → Connective.ofWord? word = none →
      Climbs [field, comparison.sign, word] [] ⟨field, comparison, .ofWord word⟩
  | step {field word : String} (comparison : Comparison) (c : Connective) {rest : List String}
      {steps : List (Condition × Connective)} {last : Condition} :
      Connective.ofWord? field = none → Connective.ofWord? word = none →
      Climbs rest steps last →
      Climbs (field :: comparison.sign :: word :: c.word :: rest)
        ((⟨field, comparison, .ofWord word⟩, c) :: steps) last

theorem free_clause {field word : String} (comparison : Comparison)
    (hfield : Connective.ofWord? field = none) (hword : Connective.ofWord? word = none) :
    Free [field, comparison.sign, word] :=
  .cons hfield (.cons (ofWord?_sign_eq_none comparison) (.cons hword free_nil))

/-- Climbing words give the ladder of their steps. -/
theorem Climbs.split {words : List String} {steps : List (Condition × Connective)}
    {last : Condition} (h : Climbs words steps last) :
    Parsing.split words = .ok (Tree.ladder last steps) := by
  induction h with
  | @last field word comparison hfield hword =>
    rw [split_of_free (free_clause comparison hfield hword), clause_sign]
    rfl
  | @step field word comparison c rest steps last hfield hword hrest ih =>
    have hne : rest ≠ [] := by
      cases hrest <;> exact List.cons_ne_nil _ _
    have happend := split_append (free_clause comparison hfield hword) c rest
    rw [clause_sign, Except.ok_bind, ih, List.isEmpty_eq_false_iff.2 hne] at happend
    exact happend

/-- Words that the recursion accepts climb. -/
theorem climbs_of_split {words : List String} {tree : Tree} (h : split words = .ok tree) :
    ∃ steps last, Climbs words steps last ∧ tree = Tree.ladder last steps := by
  -- the words behind the first connective are no tail of the constructors, only fewer
  induction hlength : words.length using Nat.strongRecOn generalizing words tree with
  | ind n ih =>
    rcases free_or_cut words with hfree | ⟨front, c, rest, hfront, rfl⟩
    · rw [split_of_free hfree] at h
      obtain ⟨field, comparison, word, rfl, rfl⟩ := clause_eq_ok h
      have hfield := hfree field (by simp)
      have hword := hfree word (by simp)
      exact ⟨[], _, .last comparison hfield hword, rfl⟩
    · rw [split_append hfront] at h
      split at h
      · cases h
      · split at h
        · cases h
        · obtain ⟨first, hclause, h⟩ := Except.bind_eq_ok.1 h
          obtain ⟨tree', hrest, h⟩ := Except.bind_eq_ok.1 h
          cases h
          obtain ⟨field, comparison, word, rfl, rfl⟩ := clause_eq_ok hclause
          have hlt : rest.length < n := by
            simp only [List.length_append, List.length_cons] at hlength
            omega
          obtain ⟨steps, last, hclimbs, rfl⟩ := ih _ hlt hrest rfl
          have hfield := hfront field (by simp)
          have hword := hfront word (by simp)
          exact ⟨_, last, .step comparison c hfield hword hclimbs, rfl⟩

/-- Inversion for the recursion. -/
theorem split_eq_ok_iff {words : List String} {tree : Tree} :
    split words = .ok tree ↔
      ∃ steps last, Climbs words steps last ∧ tree = Tree.ladder last steps := by
  refine ⟨climbs_of_split, ?_⟩
  rintro ⟨steps, last, hclimbs, rfl⟩
  exact hclimbs.split

/-! ## By the places of the words -/

/-- What its place asks of a word: it is a connective exactly at every fourth place, and a
comparison at the second of every four. -/
structure Placed (i : Nat) (word : String) : Prop where
  connective_iff : (Connective.ofWord? word).isSome ↔ i % 4 = 3
  comparison : i % 4 = 1 → (Comparison.ofWord? word).isSome

/-- Words for `k` connectives and one clause more, each fit for its place. -/
structure WellPlaced (k : Nat) (words : List String) : Prop where
  length_eq : words.length = 4 * k + 3
  placed : ∀ i word, words[i]? = some word → Placed i word

/-- At the first and the third place of four stands any word but a connective. -/
theorem placed_iff_free {i : Nat} {word : String} (hconnective : i % 4 ≠ 3)
    (hcomparison : i % 4 ≠ 1) : Placed i word ↔ Connective.ofWord? word = none := by
  refine ⟨?_, ?_⟩
  · rintro ⟨hiff, -⟩
    cases hword : Connective.ofWord? word with
    | none => rfl
    | some c =>
      rw [hword] at hiff
      exact absurd (hiff.1 rfl) hconnective
  · intro hword
    refine ⟨?_, fun h => absurd h hcomparison⟩
    rw [hword]
    refine ⟨?_, fun h => absurd h hconnective⟩
    intro h
    cases h

/-- At the second place of four stands a comparison. -/
theorem placed_one {sign : String} :
    Placed 1 sign ↔ ∃ comparison, Comparison.sign comparison = sign := by
  refine ⟨?_, ?_⟩
  · rintro ⟨-, hcomparison⟩
    obtain ⟨comparison, h⟩ := Option.isSome_iff_exists.1 (hcomparison rfl)
    exact ⟨comparison, Comparison.sign_of_ofWord? h⟩
  · rintro ⟨comparison, rfl⟩
    refine ⟨?_, fun _ => ?_⟩
    · simp [ofWord?_sign_eq_none]
    · rw [Comparison.ofWord?_sign]
      rfl

/-- At the last place of four stands a connective. -/
theorem placed_three {word : String} : Placed 3 word ↔ ∃ c, Connective.word c = word := by
  refine ⟨?_, ?_⟩
  · rintro ⟨hconnective, -⟩
    obtain ⟨c, h⟩ := Option.isSome_iff_exists.1 (hconnective.2 rfl)
    exact ⟨c, Connective.word_of_ofWord? h⟩
  · rintro ⟨c, rfl⟩
    refine ⟨?_, fun h => ?_⟩
    · simp [Connective.ofWord?_word]
    · cases h

/-- Places count by fours. -/
theorem placed_add_four {i : Nat} {word : String} : Placed (i + 4) word ↔ Placed i word := by
  have hmod : (i + 4) % 4 = i % 4 := Nat.add_mod_right i 4
  refine ⟨?_, ?_⟩
  · rintro ⟨hconnective, hcomparison⟩
    rw [hmod] at hconnective hcomparison
    exact ⟨hconnective, hcomparison⟩
  · rintro ⟨hconnective, hcomparison⟩
    refine ⟨?_, ?_⟩
    · rw [hmod]
      exact hconnective
    · rw [hmod]
      exact hcomparison

/-- What holds at every place holds at the first one, and of the other words one place later. -/
theorem forall_places_cons {P : Nat → String → Prop} {first : String} {words : List String} :
    (∀ i word, (first :: words)[i]? = some word → P i word) ↔
      P 0 first ∧ ∀ i word, words[i]? = some word → P (i + 1) word := by
  refine ⟨?_, ?_⟩
  · intro h
    exact ⟨h 0 first rfl, fun i word hword => h (i + 1) word hword⟩
  · rintro ⟨hfirst, hwords⟩ i word hword
    cases i with
    | zero =>
      cases hword
      exact hfirst
    | succ i => exact hwords i word hword

/-- The first four words can be looked at apart from the others. -/
theorem wellPlaced_succ {k : Nat} {field sign word connective : String} {rest : List String} :
    WellPlaced (k + 1) (field :: sign :: word :: connective :: rest) ↔
      Placed 0 field ∧ Placed 1 sign ∧ Placed 2 word ∧ Placed 3 connective ∧
        WellPlaced k rest := by
  refine ⟨?_, ?_⟩
  · rintro ⟨hlength, hplaced⟩
    obtain ⟨hfield, hplaced⟩ := forall_places_cons.1 hplaced
    obtain ⟨hsign, hplaced⟩ := forall_places_cons.1 hplaced
    obtain ⟨hword, hplaced⟩ := forall_places_cons.1 hplaced
    obtain ⟨hconnective, hplaced⟩ := forall_places_cons.1 hplaced
    refine ⟨hfield, hsign, hword, hconnective, ?_, ?_⟩
    · simp only [List.length_cons] at hlength
      omega
    · exact fun i word hword => placed_add_four.1 (hplaced i word hword)
  · rintro ⟨hfield, hsign, hword, hconnective, hlength, hplaced⟩
    have hrest : ∀ i word, rest[i]? = some word → Placed (i + 4) word :=
      fun i word hword => placed_add_four.2 (hplaced i word hword)
    refine ⟨?_, forall_places_cons.2 ⟨hfield, forall_places_cons.2 ⟨hsign,
      forall_places_cons.2 ⟨hword, forall_places_cons.2 ⟨hconnective, hrest⟩⟩⟩⟩⟩
    simp only [List.length_cons]
    omega

/-- A clause alone. -/
theorem wellPlaced_zero {words : List String} :
    WellPlaced 0 words ↔ ∃ field sign word, words = [field, sign, word] ∧
      Placed 0 field ∧ Placed 1 sign ∧ Placed 2 word := by
  refine ⟨?_, ?_⟩
  · rintro ⟨hlength, hplaced⟩
    match words, hlength, hplaced with
    | [field, sign, word], _, hplaced =>
      exact ⟨field, sign, word, rfl, hplaced 0 _ rfl, hplaced 1 _ rfl, hplaced 2 _ rfl⟩
  · rintro ⟨field, sign, word, rfl, hfield, hsign, hword⟩
    refine ⟨rfl, forall_places_cons.2 ⟨hfield, forall_places_cons.2 ⟨hsign,
      forall_places_cons.2 ⟨hword, ?_⟩⟩⟩⟩
    intro i found hfound
    cases hfound

/-- Climbing words are well placed. -/
theorem Climbs.wellPlaced {words : List String} {steps : List (Condition × Connective)}
    {last : Condition} (h : Climbs words steps last) : WellPlaced steps.length words := by
  induction h with
  | last comparison hfield hword =>
    exact wellPlaced_zero.2 ⟨_, _, _, rfl, (placed_iff_free (by decide) (by decide)).2 hfield,
      placed_one.2 ⟨comparison, rfl⟩, (placed_iff_free (by decide) (by decide)).2 hword⟩
  | step comparison c hfield hword _ ih =>
    exact wellPlaced_succ.2 ⟨(placed_iff_free (by decide) (by decide)).2 hfield,
      placed_one.2 ⟨comparison, rfl⟩, (placed_iff_free (by decide) (by decide)).2 hword,
      placed_three.2 ⟨c, rfl⟩, ih⟩

/-- Well placed words climb. -/
theorem WellPlaced.climbs {k : Nat} {words : List String} (h : WellPlaced k words) :
    ∃ steps last, Climbs words steps last := by
  induction k generalizing words with
  | zero =>
    obtain ⟨field, sign, word, rfl, hfield, hsign, hword⟩ := wellPlaced_zero.1 h
    obtain ⟨comparison, rfl⟩ := placed_one.1 hsign
    have hfield := (placed_iff_free (by decide) (by decide)).1 hfield
    have hword := (placed_iff_free (by decide) (by decide)).1 hword
    exact ⟨[], _, .last comparison hfield hword⟩
  | succ k ih =>
    match words, h with
    | field :: sign :: word :: connective :: rest, h =>
      obtain ⟨hfield, hsign, hword, hconnective, hrest⟩ := wellPlaced_succ.1 h
      obtain ⟨comparison, rfl⟩ := placed_one.1 hsign
      obtain ⟨c, rfl⟩ := placed_three.1 hconnective
      obtain ⟨steps, last, hclimbs⟩ := ih hrest
      have hfield := (placed_iff_free (by decide) (by decide)).1 hfield
      have hword := (placed_iff_free (by decide) (by decide)).1 hword
      exact ⟨_, last, .step comparison c hfield hword hclimbs⟩
    | [], h | [_], h | [_, _], h | [_, _, _], h =>
      have hlength := h.length_eq
      simp only [List.length_cons, List.length_nil] at hlength
      omega

/-- To be well placed is to climb in so many steps. -/
theorem wellPlaced_iff_climbs {k : Nat} {words : List String} :
    WellPlaced k words ↔ ∃ steps last, steps.length = k ∧ Climbs words steps last := by
  refine ⟨?_, ?_⟩
  · intro h
    obtain ⟨steps, last, hclimbs⟩ := h.climbs
    have hlength := hclimbs.wellPlaced.length_eq
    have hlength' := h.length_eq
    exact ⟨steps, last, by omega, hclimbs⟩
  · rintro ⟨steps, last, rfl, hclimbs⟩
    exact hclimbs.wellPlaced

/-- There are as many connectives as steps. -/
theorem Climbs.connectives_eq {words : List String} {steps : List (Condition × Connective)}
    {last : Condition} (h : Climbs words steps last) : connectives words = steps.length := by
  induction h with
  | last comparison hfield hword =>
    simp [connectives, hfield, hword, ofWord?_sign_eq_none]
  | step comparison c hfield hword _ ih =>
    rw [connectives] at ih
    simp [connectives, hfield, hword, ofWord?_sign_eq_none, Connective.ofWord?_word, ih]

/-- Each step is the clause and the connective of four words in their turn, and the last condition
is the clause of the last three. -/
structure Turns (words : List String) (steps : List (Condition × Connective))
    (last : Condition) : Prop where
  step : ∀ i condition c, steps[i]? = some (condition, c) →
    clause ((words.drop (4 * i)).take 3) = .ok (.leaf condition) ∧
      words[4 * i + 3]? = some c.word
  last : clause (words.drop (4 * steps.length)) = .ok (.leaf last)

theorem Climbs.turns {words : List String} {steps : List (Condition × Connective)}
    {last : Condition} (h : Climbs words steps last) : Turns words steps last := by
  induction h with
  | @last field word comparison hfield hword =>
    refine ⟨?_, clause_sign field comparison word⟩
    intro i condition c h
    cases h
  | @step field word comparison c rest steps last hfield hword _ ih =>
    refine ⟨?_, ?_⟩
    · intro i condition connective h
      cases i with
      | zero =>
        cases h
        exact ⟨clause_sign field comparison word, rfl⟩
      | succ i => exact ih.step i condition connective h
    · exact ih.last

/-- A parser accepts the rules that climb in fewer steps than the limit says. -/
theorem parse_firstMatch_eq_ok_iff_climbs {limit : Nat} {rule : String} {tree : Tree} :
    (⟨.firstMatch, limit⟩ : Parser).parse rule = .ok tree ↔
      ∃ steps last, steps.length + 1 ≤ limit ∧ Climbs (Text.words rule) steps last ∧
        tree = Tree.ladder last steps := by
  rw [Parser.parse_firstMatch_eq_ok, firstMatch_eq_split, split_eq_ok_iff]
  refine ⟨?_, ?_⟩
  · rintro ⟨hle, steps, last, hclimbs, rfl⟩
    rw [hclimbs.connectives_eq] at hle
    exact ⟨steps, last, hle, hclimbs, rfl⟩
  · rintro ⟨steps, last, hle, hclimbs, rfl⟩
    rw [hclimbs.connectives_eq]
    exact ⟨hle, steps, last, hclimbs, rfl⟩

/-- **Reading up to the first connective goes by places.** The loop is the recursion, for all words
and with the same error or the same tree, and a parser does it within its limit. A rule is accepted
exactly if its words are well placed and the limit admits one level for each clause, and its tree
is the ladder of the clauses in their turn, of just that depth. -/
theorem parse_by_places :
    (∀ words, firstMatch words = split words) ∧
    ∀ (limit : Nat) (rule : String),
      (⟨.firstMatch, limit⟩ : Parser).parse rule =
        (if Text.allBlank rule then .error .emptyRule
        else if limit < connectives (Text.words rule) + 1 then
          .error (.depthExceeded (connectives (Text.words rule) + 1) limit)
        else split (Text.words rule)) ∧
      ((∃ tree, (⟨.firstMatch, limit⟩ : Parser).parse rule = .ok tree) ↔
        ∃ k, k + 1 ≤ limit ∧ WellPlaced k (Text.words rule)) ∧
      ∀ tree, (⟨.firstMatch, limit⟩ : Parser).parse rule = .ok tree →
        ∃ steps last, (Text.words rule).length = 4 * steps.length + 3 ∧
          tree = Tree.ladder last steps ∧ Turns (Text.words rule) steps last ∧
          tree.depth = steps.length + 1 := by
  refine ⟨firstMatch_eq_split, fun limit rule => ⟨?_, ?_, ?_⟩⟩
  · rw [Parser.parse]
    split
    · rfl
    · rw [← firstMatch_eq_split]
      exact Parser.checkDepth_bind ..
  · refine ⟨?_, ?_⟩
    · rintro ⟨tree, h⟩
      obtain ⟨steps, last, hle, hclimbs, -⟩ := parse_firstMatch_eq_ok_iff_climbs.1 h
      exact ⟨steps.length, hle, hclimbs.wellPlaced⟩
    · rintro ⟨k, hle, hplaced⟩
      obtain ⟨steps, last, rfl, hclimbs⟩ := wellPlaced_iff_climbs.1 hplaced
      exact ⟨_, parse_firstMatch_eq_ok_iff_climbs.2 ⟨steps, last, hle, hclimbs, rfl⟩⟩
  · intro tree h
    obtain ⟨steps, last, -, hclimbs, rfl⟩ := parse_firstMatch_eq_ok_iff_climbs.1 h
    refine ⟨steps, last, hclimbs.wellPlaced.length_eq, rfl, hclimbs.turns, ?_⟩
    rw [Tree.depth_eq_height, Tree.height_ladder]

/-- Three clauses under the least limit that admits them; the first connective is at the top. -/
theorem parse_by_places_three :
    (⟨.firstMatch, 3⟩ : Parser).parse "a = 1 OR b > 2 AND c < x" = .ok
      (.join .or (.leaf ⟨"a", .equal, .ofWord "1"⟩)
        (.join .and (.leaf ⟨"b", .greater, .ofWord "2"⟩) (.leaf ⟨"c", .less, .ofWord "x"⟩))) ∧
    ∃ steps last, (Text.words "a = 1 OR b > 2 AND c < x").length = 4 * steps.length + 3 ∧
      Tree.join .or (.leaf ⟨"a", .equal, .ofWord "1"⟩)
        (.join .and (.leaf ⟨"b", .greater, .ofWord "2"⟩) (.leaf ⟨"c", .less, .ofWord "x"⟩)) =
          Tree.ladder last steps ∧
      Turns (Text.words "a = 1 OR b > 2 AND c < x") steps last ∧
      (Tree.join .or (.leaf ⟨"a", .equal, .ofWord "1"⟩)
        (.join .and (.leaf ⟨"b", .greater, .ofWord "2"⟩)
          (.leaf ⟨"c", .less, .ofWord "x"⟩))).depth = steps.length + 1 := by
  have hparse : (⟨.firstMatch, 3⟩ : Parser).parse "a = 1 OR b > 2 AND c < x" = .ok
      (.join .or (.leaf ⟨"a", .equal, .ofWord "1"⟩)
        (.join .and (.leaf ⟨"b", .greater, .ofWord "2"⟩) (.leaf ⟨"c", .less, .ofWord "x"⟩))) := rfl
  obtain ⟨-, -, hladder⟩ := parse_by_places.2 3 "a = 1 OR b > 2 AND c < x"
  exact ⟨hparse, hladder _ hparse⟩

end Parsing

end Rulebook
