import Rulebook.Proofs.Spelling

/-!
# The grammar of rules with precedence

The reader with precedence is a machine over single tokens; what it reads is the language of

    disjunction := conjunction (OR conjunction)*
    conjunction := part (AND part)*
    part        := "(" disjunction ")" | word sign word

with both connectives joining from the left and parentheses leaving no node behind. `Derives`
says this by itself, without states or levels, and `precedence_eq_ok_iff` says that the machine
accepts a list of tokens with a tree exactly if the grammar derives that tree from it.

Completeness follows a derivation: whatever surrounds it, the machine passes over the tokens of a
part and stands at a joint with its tree (`Passes`). Soundness follows the machine: `StateReads`
says which tokens a state stands for, and each step keeps it.
-/

namespace Rulebook.Parsing

/-! ## Derivations -/

/-- The three kinds of phrases of the grammar. -/
inductive Phrase where
  | part
  | conjunction
  | disjunction

/-- The tokens derive the tree as a phrase of the given kind. -/
inductive Derives : Phrase → List Token → Tree → Prop where
  /-- three words, the one in the middle a comparison -/
  | clause (field : String) (comparison : Comparison) (word : String) :
      Derives .part [.word field, .word comparison.sign, .word word]
        (.leaf ⟨field, comparison, .ofWord word⟩)
  /-- parentheses around a disjunction -/
  | group {tokens : List Token} {tree : Tree} :
      Derives .disjunction tokens tree → Derives .part (.opening :: (tokens ++ [.closing])) tree
  | part {tokens : List Token} {tree : Tree} :
      Derives .part tokens tree → Derives .conjunction tokens tree
  | and {front back : List Token} {left right : Tree} :
      Derives .conjunction front left → Derives .part back right →
      Derives .conjunction (front ++ .connective .and :: back) (.join .and left right)
  | conjunction {tokens : List Token} {tree : Tree} :
      Derives .conjunction tokens tree → Derives .disjunction tokens tree
  | or {front back : List Token} {left right : Tree} :
      Derives .disjunction front left → Derives .conjunction back right →
      Derives .disjunction (front ++ .connective .or :: back) (.join .or left right)

/-- No phrase is empty. -/
theorem Derives.ne_nil {k : Phrase} {tokens : List Token} {tree : Tree}
    (h : Derives k tokens tree) : tokens ≠ [] := by
  induction h with
  | clause | group => exact List.cons_ne_nil _ _
  | part _ ih | conjunction _ ih => exact ih
  | and | or => simp

/-- The words of a clause derive its condition. -/
theorem Derives.of_clause {words : List String} {tree : Tree}
    (h : Parsing.clause words = .ok tree) : Derives .part (words.map .word) tree := by
  obtain ⟨field, comparison, word, rfl, rfl⟩ := clause_eq_ok h
  exact .clause field comparison word

/-! ## Completeness

A clause ends where the next token is no word, so the tokens behind a phrase must not go on with
one. In the grammar they never do: a phrase is followed by a connective, by a closing parenthesis
or by nothing. -/

/-- The first of the tokens is no word. -/
def NoWordNext (rest : List Token) : Prop := ∀ text, rest.head? ≠ some (.word text)

theorem noWordNext_nil : NoWordNext [] := fun _ h => by cases h

theorem noWordNext_connective (c : Connective) (rest : List Token) :
    NoWordNext (.connective c :: rest) := fun _ h => by cases h

theorem noWordNext_closing (rest : List Token) : NoWordNext (.closing :: rest) :=
  fun _ h => by cases h

namespace State

theorem run_cons (s : State) (token : Token) (rest : List Token) :
    s.run (token :: rest) = s.step rest token >>= fun next => next.run rest := rfl

/-- Where no word follows, an open clause is as good as the part that it writes. -/
theorem run_clause {s : State} {words : List String} {tree : Tree} {rest : List Token}
    (hclause : clause words.reverse = .ok tree) (hrest : NoWordNext rest) :
    { s with phase := .clause words }.run rest = { s with phase := .joint tree }.run rest := by
  cases rest with
  | nil => simp only [run, finish, hclause, Except.ok_bind, finishLevel]
  | cons token rest =>
    cases token with
    | word text => exact absurd rfl (hrest text)
    | opening | closing | connective =>
      simp only [run_cons, step, hclause, Except.ok_bind, stepJoint]

end State

/-- The machine passes over the tokens of a phrase. From a state that waits for a part it comes
to a joint, with the tree of the phrase spread over what the level holds and what was read last;
how much of the level may be used depends on the kind of the phrase. -/
def Passes (tokens : List Token) (tree : Tree) : Phrase → Prop
  | .part => ∀ (s : State) (after : Option Connective) (rest : List Token), NoWordNext rest →
      { s with phase := .part after }.run (tokens ++ rest) =
        { s with phase := .joint tree }.run rest
  | .conjunction => ∀ (s : State) (after : Option Connective) (rest : List Token),
      NoWordNext rest → s.level.conjunction = none →
      ∃ waiting last, Level.under .and waiting last = tree ∧
        { s with phase := .part after }.run (tokens ++ rest) =
          { s with level.conjunction := waiting, phase := .joint last }.run rest
  | .disjunction => ∀ (s : State) (after : Option Connective) (rest : List Token),
      NoWordNext rest → s.level = .start →
      ∃ level last, Level.close level last = tree ∧
        { s with phase := .part after }.run (tokens ++ rest) =
          { s with level, phase := .joint last }.run rest

theorem passes_clause (field : String) (comparison : Comparison) (word : String) :
    Passes [.word field, .word comparison.sign, .word word]
      (.leaf ⟨field, comparison, .ofWord word⟩) .part := by
  intro s after rest hrest
  have hclause : clause [word, comparison.sign, field].reverse =
      .ok (.leaf ⟨field, comparison, .ofWord word⟩) := clause_sign field comparison word
  exact s.run_clause hclause hrest

/-- Parentheses around a disjunction are passed whatever comes behind them. -/
theorem run_group {tokens : List Token} {tree : Tree} (h : Passes tokens tree .disjunction)
    (s : State) (after : Option Connective) (rest : List Token) :
    { s with phase := .part after }.run (Token.opening :: (tokens ++ [Token.closing]) ++ rest) =
      { s with phase := .joint tree }.run rest := by
  obtain ⟨level, last, hclose, hrun⟩ := h ⟨s.level :: s.outer, s.depth + 1, .start, .part none⟩
    none (.closing :: rest) (noWordNext_closing rest) rfl
  rw [List.cons_append, List.append_assoc, List.singleton_append, State.run_cons]
  refine hrun.trans ?_
  -- the closing parenthesis makes the level a part of the one around it
  rw [State.run_cons, ← hclose]
  rfl

theorem passes_group {tokens : List Token} {tree : Tree} (h : Passes tokens tree .disjunction) :
    Passes (.opening :: (tokens ++ [.closing])) tree .part :=
  fun s after rest _ => run_group h s after rest

theorem passes_and {front back : List Token} {left right : Tree}
    (hl : Passes front left .conjunction) (hr : Passes back right .part) :
    Passes (front ++ .connective .and :: back) (.join .and left right) .conjunction := by
  intro s after rest hrest hnone
  obtain ⟨waiting, last, rfl, hrun⟩ :=
    hl s after (.connective .and :: back ++ rest) (noWordNext_connective _ _) hnone
  refine ⟨some (Level.under .and waiting last), right, rfl, ?_⟩
  rw [List.append_assoc, hrun]
  -- behind the connective everything before it waits as one tree
  exact hr { s with level := ⟨s.level.disjunction, some (Level.under .and waiting last)⟩ }
    (some .and) rest hrest

theorem passes_or {front back : List Token} {left right : Tree}
    (hl : Passes front left .disjunction) (hr : Passes back right .conjunction) :
    Passes (front ++ .connective .or :: back) (.join .or left right) .disjunction := by
  intro s after rest hrest hstart
  obtain ⟨level, last, rfl, hrun⟩ :=
    hl s after (.connective .or :: back ++ rest) (noWordNext_connective _ _) hstart
  obtain ⟨waiting, right', rfl, hrun'⟩ :=
    hr { s with level := level.or last } (some .or) rest hrest rfl
  refine ⟨⟨some (level.close last), waiting⟩, right', rfl, ?_⟩
  rw [List.append_assoc, hrun]
  exact hrun'

theorem Derives.passes {k : Phrase} {tokens : List Token} {tree : Tree}
    (h : Derives k tokens tree) : Passes tokens tree k := by
  induction h with
  | clause field comparison word => exact passes_clause field comparison word
  | group _ ih => exact passes_group ih
  | part _ ih =>
    intro s after rest hrest hnone
    refine ⟨none, _, rfl, ?_⟩
    rw [ih s after rest hrest, ← hnone]
  | and _ _ ihl ihr => exact passes_and ihl ihr
  | conjunction _ ih =>
    intro s after rest hrest hstart
    obtain ⟨waiting, last, rfl, hrun⟩ := ih s after rest hrest (by rw [hstart]; rfl)
    refine ⟨⟨none, waiting⟩, last, rfl, ?_⟩
    rw [hrun, hstart]
    rfl
  | or _ _ ihl ihr => exact passes_or ihl ihr

/-- The machine finds what the grammar derives. -/
theorem Derives.precedence {tokens : List Token} {tree : Tree}
    (h : Derives .disjunction tokens tree) : Parsing.precedence tokens = .ok tree := by
  obtain ⟨level, last, hclose, hrun⟩ := h.passes .start none [] noWordNext_nil rfl
  rw [List.append_nil] at hrun
  rw [← hclose]
  exact hrun

/-! ## Soundness

A state stands for the tokens that lead to it: those of the levels around the present one, each
with the parenthesis that opened the next, those of the present level, and those of the phase. -/

/-- The tokens up to a connective that waits for its right side, or none if nothing waits. -/
inductive WaitingReads (k : Phrase) (c : Connective) : Option Tree → List Token → Prop where
  | none : WaitingReads k c none []
  | some {tokens : List Token} {tree : Tree} :
      Derives k tokens tree → WaitingReads k c (some tree) (tokens ++ [.connective c])

/-- The tokens of a level: a disjunction that waits, then a conjunction that waits. -/
def LevelReads (level : Level) (tokens : List Token) : Prop :=
  ∃ front back, tokens = front ++ back ∧
    WaitingReads .disjunction .or level.disjunction front ∧
    WaitingReads .conjunction .and level.conjunction back

/-- The tokens of the levels around the present one. -/
inductive OuterReads : List Level → List Token → Prop where
  | nil : OuterReads [] []
  | cons {level : Level} {outer : List Level} {front back : List Token} :
      OuterReads outer front → LevelReads level back →
      OuterReads (level :: outer) (front ++ back ++ [.opening])

/-- The tokens of a phase. -/
inductive PhaseReads : Phase → List Token → Prop where
  | part (after : Option Connective) : PhaseReads (.part after) []
  | clause (words : List String) : PhaseReads (.clause words) (words.reverse.map .word)
  | joint {tokens : List Token} {tree : Tree} :
      Derives .part tokens tree → PhaseReads (.joint tree) tokens

/-- The tokens of a state. -/
def StateReads (s : State) (tokens : List Token) : Prop :=
  ∃ around level phase, tokens = around ++ level ++ phase ∧
    OuterReads s.outer around ∧ LevelReads s.level level ∧ PhaseReads s.phase phase

theorem levelReads_start : LevelReads .start [] := ⟨[], [], rfl, .none, .none⟩

namespace WaitingReads

variable {waiting : Option Tree} {front tokens : List Token} {tree : Tree}

/-- What waits for a part becomes a conjunction with it. -/
theorem conjunction (hw : WaitingReads .conjunction .and waiting front)
    (h : Derives .part tokens tree) :
    Derives .conjunction (front ++ tokens) (Level.under .and waiting tree) := by
  cases hw with
  | none => exact .part h
  | some hleft =>
    rw [List.append_assoc]
    exact .and hleft h

/-- What waits for a conjunction becomes a disjunction with it. -/
theorem disjunction (hw : WaitingReads .disjunction .or waiting front)
    (h : Derives .conjunction tokens tree) :
    Derives .disjunction (front ++ tokens) (Level.under .or waiting tree) := by
  cases hw with
  | none => exact .conjunction h
  | some hleft =>
    rw [List.append_assoc]
    exact .or hleft h

end WaitingReads

namespace LevelReads

variable {level : Level} {front tokens : List Token} {tree : Tree}

/-- A level and its last part are a disjunction. -/
theorem close (hl : LevelReads level front) (h : Derives .part tokens tree) :
    Derives .disjunction (front ++ tokens) (level.close tree) := by
  obtain ⟨before, within, rfl, hor, hand⟩ := hl
  rw [List.append_assoc]
  exact hor.disjunction (hand.conjunction h)

theorem and (hl : LevelReads level front) (h : Derives .part tokens tree) :
    LevelReads (level.and tree) (front ++ tokens ++ [.connective .and]) := by
  obtain ⟨before, within, rfl, hor, hand⟩ := hl
  refine ⟨before, within ++ tokens ++ [.connective .and], ?_, hor, .some (hand.conjunction h)⟩
  simp only [List.append_assoc]

theorem or (hl : LevelReads level front) (h : Derives .part tokens tree) :
    LevelReads (level.or tree) (front ++ tokens ++ [.connective .or]) := by
  refine ⟨front ++ tokens ++ [.connective .or], [], ?_, .some (hl.close h), .none⟩
  rw [List.append_nil]

end LevelReads

/-! ### One step -/

variable {s next : State} {tokens rest : List Token} {token : Token} {tree : Tree}

/-- The step behind a part, whose tokens are `last`. -/
theorem StateReads.stepJoint {around front last : List Token}
    (ho : OuterReads s.outer around) (hl : LevelReads s.level front)
    (h : Derives .part last tree) (hs : s.stepJoint tree rest token = .ok next) :
    StateReads next (around ++ front ++ last ++ [token]) := by
  cases token with
  | word text =>
    simp only [State.stepJoint] at hs
    split at hs <;> cases hs
  | opening =>
    simp only [State.stepJoint] at hs
    split at hs <;> cases hs
  | connective c =>
    cases c with
    | and =>
      cases hs
      refine ⟨around, front ++ last ++ [.connective .and], [], ?_, ho, hl.and h, .part _⟩
      simp only [List.append_assoc, List.append_nil]
    | or =>
      cases hs
      refine ⟨around, front ++ last ++ [.connective .or], [], ?_, ho, hl.or h, .part _⟩
      simp only [List.append_assoc, List.append_nil]
  | closing =>
    obtain ⟨outer, depth, level, phase⟩ := s
    cases ho with
    | nil => cases hs
    | @cons below outer before within hbefore hwithin =>
      -- the level that ends becomes a group, and the level below goes on with it
      cases hs
      refine ⟨before, within, .opening :: (front ++ last ++ [.closing]), ?_, hbefore, hwithin,
        .joint (.group (hl.close h))⟩
      simp only [List.append_assoc, List.cons_append, List.nil_append]

/-- Each step keeps the correspondence between a state and the tokens read. -/
theorem StateReads.step (h : StateReads s tokens) (hs : s.step rest token = .ok next) :
    StateReads next (tokens ++ [token]) := by
  obtain ⟨around, front, last, rfl, ho, hl, hp⟩ := h
  obtain ⟨outer, depth, level, phase⟩ := s
  cases hp with
  | part after =>
    cases token with
    | opening =>
      cases hs
      refine ⟨around ++ front ++ [.opening], [], [], ?_, .cons ho hl, levelReads_start, .part _⟩
      simp only [List.append_nil]
    | word text =>
      cases hs
      refine ⟨around, front, [.word text], ?_, ho, hl, .clause [text]⟩
      rw [List.append_nil]
    | closing | connective c =>
      simp only [State.step, State.stepPart] at hs
      split at hs <;> cases hs
  | clause words =>
    cases token with
    | word text =>
      cases hs
      refine ⟨around, front, (text :: words).reverse.map .word, ?_, ho, hl, .clause _⟩
      simp only [List.reverse_cons, List.map_append, List.map_cons, List.map_nil,
        List.append_assoc]
    | opening | closing | connective c =>
      obtain ⟨tree, hclause, hs⟩ := Except.bind_eq_ok.1 hs
      exact StateReads.stepJoint ho hl (.of_clause hclause) hs
  | joint hpart => exact StateReads.stepJoint ho hl hpart hs

/-! ### Whole runs -/

/-- At the end of the tokens no level may be open around the last part. -/
theorem StateReads.finishLevel {around front last : List Token} {part : Tree}
    (ho : OuterReads s.outer around) (hl : LevelReads s.level front)
    (h : Derives .part last part) (hs : s.finishLevel part = .ok tree) :
    Derives .disjunction (around ++ front ++ last) tree := by
  obtain ⟨outer, depth, level, phase⟩ := s
  cases ho with
  | nil =>
    cases hs
    exact hl.close h
  | cons => cases hs

/-- The end of the tokens makes a disjunction of everything read. -/
theorem StateReads.finish (h : StateReads s tokens) (hs : s.finish = .ok tree) :
    Derives .disjunction tokens tree := by
  obtain ⟨around, front, last, rfl, ho, hl, hp⟩ := h
  obtain ⟨outer, depth, level, phase⟩ := s
  cases hp with
  | part after => cases after <;> cases hs
  | clause words =>
    obtain ⟨part, hclause, hs⟩ := Except.bind_eq_ok.1 hs
    exact StateReads.finishLevel ho hl (.of_clause hclause) hs
  | joint hpart => exact StateReads.finishLevel ho hl hpart hs

theorem StateReads.run (h : StateReads s tokens) (hs : s.run rest = .ok tree) :
    Derives .disjunction (tokens ++ rest) tree := by
  induction rest generalizing s tokens with
  | nil =>
    rw [List.append_nil]
    exact h.finish hs
  | cons token rest ih =>
    obtain ⟨next, hstep, hrun⟩ := Except.bind_eq_ok.1 hs
    rw [List.append_cons]
    exact ih (h.step hstep) hrun

/-- **The machine reads the grammar**: it ends with a tree exactly if the tokens derive it. -/
theorem precedence_eq_ok_iff :
    precedence tokens = .ok tree ↔ Derives .disjunction tokens tree :=
  ⟨fun h => StateReads.run ⟨[], [], [], rfl, .nil, levelReads_start, .part none⟩ h,
    Derives.precedence⟩

/-! ## Parentheses -/

/-- Holds for the tokens that group and stand for nothing in the tree. -/
def Token.isParenthesis : Token → Bool
  | .opening | .closing => true
  | _ => false

/-- Parentheses match: none closes before it opens, and all that open close. -/
structure Balanced (tokens : List Token) : Prop where
  /-- no beginning of the tokens closes more than it opens -/
  begins : ∀ n, (tokens.take n).count .closing ≤ (tokens.take n).count .opening
  /-- as many close as open -/
  ends : tokens.count .closing = tokens.count .opening

namespace Balanced

variable {front back : List Token}

theorem nil : Balanced [] := ⟨fun n => by rw [List.take_nil]; exact Nat.le_refl 0, rfl⟩

theorem append (hf : Balanced front) (hb : Balanced back) : Balanced (front ++ back) where
  begins n := by
    have hfront := hf.begins n
    have hback := hb.begins (n - front.length)
    rw [List.take_append, List.count_append, List.count_append]
    omega
  ends := by rw [List.count_append, List.count_append, hf.ends, hb.ends]

/-- A token that is no parenthesis changes nothing. -/
theorem cons {token : Token} (ht : token.isParenthesis = false) (hb : Balanced back) :
    Balanced (token :: back) := by
  have hopen : token ≠ .opening := by rintro rfl; cases ht
  have hclose : token ≠ .closing := by rintro rfl; cases ht
  refine ⟨?_, ?_⟩
  · intro n
    cases n with
    | zero => exact Nat.le_refl 0
    | succ n =>
      rw [List.take_succ_cons, List.count_cons_of_ne hopen, List.count_cons_of_ne hclose]
      exact hb.begins n
  · rw [List.count_cons_of_ne hopen, List.count_cons_of_ne hclose, hb.ends]

theorem group (hb : Balanced back) : Balanced (.opening :: (back ++ [.closing])) := by
  refine ⟨?_, ?_⟩
  · intro n
    cases n with
    | zero => exact Nat.le_refl 0
    | succ n =>
      -- the parenthesis at the front makes up for the one at the end, whether cut off or not
      have hback := hb.begins n
      have hlast : ([Token.closing].take (n - back.length)).count .closing ≤ 1 :=
        List.Sublist.count_le Token.closing (List.take_sublist _ _)
      rw [List.take_succ_cons, List.count_cons_self, List.count_cons_of_ne (by decide),
        List.take_append, List.count_append, List.count_append]
      omega
  · rw [List.count_cons_self, List.count_cons_of_ne (by decide), List.count_append,
      List.count_append, hb.ends]
    rfl

end Balanced

variable {k : Phrase}

/-- What the grammar derives is balanced. -/
theorem Derives.balanced (h : Derives k tokens tree) : Balanced tokens := by
  induction h with
  | clause => exact .cons rfl (.cons rfl (.cons rfl .nil))
  | group _ ih => exact ih.group
  | part _ ih | conjunction _ ih => exact ih
  | and _ _ ihl ihr | or _ _ ihl ihr => exact ihl.append (.cons rfl ihr)

/-- A derived tree spells the tokens that are no parentheses. -/
theorem Derives.spells (h : Derives k tokens tree) :
    Spells tree (tokens.filter fun token => !token.isParenthesis) := by
  induction h with
  | clause field comparison word => exact .leaf field comparison word
  | group _ ih =>
    rw [List.filter_cons_of_neg (by decide), List.filter_append]
    simpa [Token.isParenthesis] using ih
  | part _ ih | conjunction _ ih => exact ih
  | and _ _ ihl ihr | or _ _ ihl ihr =>
    rw [List.filter_append, List.filter_cons_of_pos rfl]
    exact .join _ ihl ihr

/-- Parentheses count for nothing among the joints. -/
theorem joints_filter (tokens : List Token) :
    joints (tokens.filter fun token => !token.isParenthesis) = joints tokens := by
  induction tokens with
  | nil => rfl
  | cons token rest ih =>
    cases token with
    | opening | closing => exact ih
    | word text => exact ih
    | connective c => exact congrArg (· + 1) ih

/-! ## Parsers with precedence -/

/-- A parser with precedence gives a tree exactly if the bound on the depth is within its limit
and the tokens derive the tree. Blank rules have no tokens and so no derivation. -/
theorem parse_precedence_eq_ok {limit : Nat} {rule : String} {tree : Tree} :
    (⟨.precedence, limit⟩ : Parser).parse rule = .ok tree ↔
      depthBound (Token.ofRule rule) ≤ limit ∧
        Derives .disjunction (Token.ofRule rule) tree := by
  rw [Parser.parse]
  split
  · next hblank =>
    have hnil : Token.ofRule rule = [] := by
      rw [Token.ofRule, Text.words_eq_nil_iff.2 hblank, List.flatMap_nil]
    refine ⟨?_, ?_⟩
    · intro h
      cases h
    · rintro ⟨-, h⟩
      exact absurd hnil h.ne_nil
  · rw [← precedence_eq_ok_iff]
    exact Parser.checkDepth_bind_eq_ok

/-- **Reading with precedence is reading the grammar.** Within the limit a rule is accepted with a
tree exactly if its tokens derive that tree. The parentheses of an accepted rule match, and its
tree spells all other tokens in their order. -/
theorem parse_precedence_iff_derives (limit : Nat) (rule : String) :
    (depthBound (Token.ofRule rule) ≤ limit →
      ∀ tree, (⟨.precedence, limit⟩ : Parser).parse rule = .ok tree ↔
        Derives .disjunction (Token.ofRule rule) tree) ∧
    ∀ tree, (⟨.precedence, limit⟩ : Parser).parse rule = .ok tree →
      Balanced (Token.ofRule rule) ∧
        Spells tree ((Token.ofRule rule).filter fun token => !token.isParenthesis) := by
  refine ⟨?_, ?_⟩
  · intro hbound tree
    rw [parse_precedence_eq_ok]
    exact and_iff_right hbound
  · intro tree h
    obtain ⟨-, hderives⟩ := parse_precedence_eq_ok.1 h
    exact ⟨hderives.balanced, hderives.spells⟩

/-- A group on the left of a conjunction, with the limit at the bound of its tokens. -/
theorem parse_group_and :
    depthBound (Token.ofRule "(a = 1 OR b > 2) AND c < x") ≤ 3 ∧
    (⟨.precedence, 3⟩ : Parser).parse "(a = 1 OR b > 2) AND c < x" = .ok
      (.join .and
        (.join .or (.leaf ⟨"a", .equal, .ofWord "1"⟩) (.leaf ⟨"b", .greater, .ofWord "2"⟩))
        (.leaf ⟨"c", .less, .ofWord "x"⟩)) ∧
    Balanced (Token.ofRule "(a = 1 OR b > 2) AND c < x") := by
  have htokens : Token.ofRule "(a = 1 OR b > 2) AND c < x" =
      [.opening, .word "a", .word "=", .word "1", .connective .or, .word "b", .word ">", .word "2",
        .closing, .connective .and, .word "c", .word "<", .word "x"] := by decide
  have hbound : depthBound (Token.ofRule "(a = 1 OR b > 2) AND c < x") ≤ 3 := by
    rw [htokens]
    decide
  have hderives : Derives .disjunction (Token.ofRule "(a = 1 OR b > 2) AND c < x")
      (.join .and
        (.join .or (.leaf ⟨"a", .equal, .ofWord "1"⟩) (.leaf ⟨"b", .greater, .ofWord "2"⟩))
        (.leaf ⟨"c", .less, .ofWord "x"⟩)) := by
    rw [htokens]
    have hor := Derives.or (.conjunction (.part (.clause "a" .equal "1")))
      (.part (.clause "b" .greater "2"))
    exact .conjunction (.and (.part (.group hor)) (.clause "c" .less "x"))
  have hparse := ((parse_precedence_iff_derives 3 _).1 hbound _).2 hderives
  exact ⟨hbound, hparse, ((parse_precedence_iff_derives 3 _).2 _ hparse).1⟩

end Rulebook.Parsing
