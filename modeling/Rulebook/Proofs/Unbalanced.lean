import Mathlib.Data.List.Basic
import Rulebook.Proofs.OpenParentheses

/-!
# When parentheses are called unbalanced

The reader with precedence says that parentheses do not match in three places, and in each it looks
at what is next only. Two of them are right: a parenthesis that closes where no level is open
closes one too many, and a rule that ends inside parentheses leaves one open. The third is not
always. Behind a part that stands inside parentheses everything but a connective or a closing
parenthesis is taken for a missing closing parenthesis, also the beginning of another part, and the
closing parenthesis may well follow. (Outside of parentheses the same beginning makes a malformed
clause.)

So the rules with balanced parentheses that are reported all the same are those in which two parts
meet inside parentheses (`PartsMeet`). The grammar alone says which these are. That the reader stops
there follows the grammar, as completeness does: it passes over the levels that are open, over what
waits in the present one, and over the part (`OuterReads.run`, `LevelReads.run`). That it stops
nowhere else follows the reader: a step that makes the report is inverted
(`State.step_eq_unbalanced`), and the tokens of the state are those that the grammar says
(`Reaches.reads`).
-/

namespace Rulebook.Parsing

variable {tokens read rest : List Token} {token : Token} {s next : State} {tree : Tree}
variable {detail : String}

/-! ## Where the report is made -/

/-- The words of a clause are never reported for parentheses. -/
theorem clause_ne_unbalanced (words : List String) :
    clause words ≠ .error (.unbalancedParentheses detail) := by
  intro h
  unfold clause at h
  split at h
  · split at h <;> cases h
  · cases h

namespace State

/-- Behind a part the report is made for a closing parenthesis where no level is open, and where one
is open for what begins another part. -/
theorem stepJoint_eq_unbalanced
    (h : s.stepJoint tree rest token = .error (.unbalancedParentheses detail)) :
    token = .closing ∧ s.outer = [] ∨
      detail = "缺少右括号" ∧ s.outer ≠ [] ∧ (token = .opening ∨ ∃ text, token = .word text) := by
  obtain ⟨outer, depth, level, phase⟩ := s
  cases token with
  | connective c => cases c <;> cases h
  | closing =>
    cases outer with
    | nil => exact .inl ⟨rfl, rfl⟩
    | cons => cases h
  | opening =>
    cases outer with
    | nil => cases h
    | cons =>
      cases h
      exact .inr ⟨rfl, List.cons_ne_nil _ _, .inl rfl⟩
  | word text =>
    cases outer with
    | nil => cases h
    | cons =>
      cases h
      exact .inr ⟨rfl, List.cons_ne_nil _ _, .inr ⟨text, rfl⟩⟩

/-- A step that makes the report is at a closing parenthesis where no level is open, or it is inside
parentheses, behind a part, at the beginning of another part. -/
theorem step_eq_unbalanced (h : s.step rest token = .error (.unbalancedParentheses detail)) :
    token = .closing ∧ s.outer = [] ∨
      detail = "缺少右括号" ∧ s.outer ≠ [] ∧
        ((∃ tree, s.phase = .joint tree ∧ (token = .opening ∨ ∃ text, token = .word text)) ∨
          ∃ words tree, s.phase = .clause words ∧ clause words.reverse = .ok tree ∧
            token = .opening) := by
  obtain ⟨outer, depth, level, phase⟩ := s
  cases phase with
  | part after =>
    cases token with
    | opening | word => cases h
    | closing | connective => cases after <;> cases h
  | joint tree =>
    obtain hover | ⟨hdetail, hopen, htoken⟩ := stepJoint_eq_unbalanced h
    · exact .inl hover
    · exact .inr ⟨hdetail, hopen, .inl ⟨tree, rfl, htoken⟩⟩
  | clause words =>
    cases token with
    | word text => cases h
    | opening | closing | connective =>
      cases hclause : clause words.reverse with
      | error e =>
        simp only [step, hclause] at h
        cases h
        exact absurd hclause (clause_ne_unbalanced _)
      | ok tree =>
        simp only [step, hclause, Except.ok_bind] at h
        obtain hover | ⟨hdetail, hopen, htoken⟩ := stepJoint_eq_unbalanced h
        · exact .inl hover
        · refine .inr ⟨hdetail, hopen, .inr ⟨words, tree, rfl, hclause, ?_⟩⟩
          -- of the two tokens that begin a part this is no word
          obtain hopening | ⟨text, hword⟩ := htoken
          · exact hopening
          · cases hword

/-- At the end of the tokens the report is made inside parentheses. -/
theorem finish_eq_unbalanced (hs : s.Counted)
    (h : s.finish = .error (.unbalancedParentheses detail)) : s.outer ≠ [] := by
  obtain ⟨outer, depth, level, phase⟩ := s
  rintro rfl
  cases phase with
  | part after =>
    cases after with
    | some c => cases h
    | none =>
      cases hs
      cases h
  | joint tree => cases h
  | clause words =>
    cases hclause : clause words.reverse with
    | error e =>
      simp only [finish, hclause] at h
      cases h
      exact clause_ne_unbalanced _ hclause
    | ok tree =>
      simp only [finish, hclause, Except.ok_bind] at h
      cases h

theorem closing_of_stepJoint {last : Tree} (h : s.stepJoint last rest token = .ok next)
    (hnext : next.phase = .joint tree) : token = .closing := by
  obtain ⟨outer, depth, level, phase⟩ := s
  cases token with
  | closing => rfl
  | connective c => cases c <;> cases h <;> cases hnext
  | opening | word text => cases outer <;> cases h

/-- What is read last before a joint is a closing parenthesis. -/
theorem closing_of_step (h : s.step rest token = .ok next) (hnext : next.phase = .joint tree) :
    token = .closing := by
  obtain ⟨outer, depth, level, phase⟩ := s
  cases phase with
  | part after =>
    cases token with
    | opening | word text =>
      cases h
      cases hnext
    | closing => rfl
    | connective c => cases after <;> cases h
  | joint last => exact closing_of_stepJoint h hnext
  | clause words =>
    cases token with
    | word text =>
      cases h
      cases hnext
    | opening | closing | connective c =>
      obtain ⟨last, -, h⟩ := Except.bind_eq_ok.1 h
      exact closing_of_stepJoint h hnext

end State

/-! ## What has been read there -/

/-- The tokens read are those that the state stands for. -/
theorem Reaches.reads (h : Reaches tokens read s rest) : StateReads s read := by
  induction h with
  | start => exact ⟨[], [], [], rfl, .nil, levelReads_start, .part none⟩
  | step _ hstep ih => exact ih.step hstep

/-- A joint stands behind a closing parenthesis. -/
theorem Reaches.closing_of_joint (h : Reaches tokens read s rest) (hs : s.phase = .joint tree) :
    read.getLast? = some .closing := by
  cases h with
  | start => cases hs
  | step _ hstep => rw [List.getLast?_concat, State.closing_of_step hstep hs]

/-- A part that ends with a closing parenthesis is in parentheses. -/
theorem Derives.group_of_closing (h : Derives .part tokens tree)
    (hlast : tokens.getLast? = some .closing) :
    ∃ inner, tokens = .opening :: (inner ++ [.closing]) ∧ Derives .disjunction inner tree := by
  cases h with
  | clause => cases hlast
  | group hinner => exact ⟨_, rfl, hinner⟩

/-- Two parts meet inside parentheses: behind a part there begins another one with no connective
before it, at a parenthesis or, if the part is no clause that would go on with it, at a word. What
stands before are levels that are open, and what waits in the present one. -/
inductive PartsMeet : List Token → Prop where
  | opening {level below : Level} {outer : List Level} {around front part : List Token}
      {tree : Tree} :
      OuterReads (below :: outer) around → LevelReads level front → Derives .part part tree →
      (rest : List Token) → PartsMeet (around ++ front ++ part ++ .opening :: rest)
  | word {level below : Level} {outer : List Level} {around front inner : List Token}
      {tree : Tree} :
      OuterReads (below :: outer) around → LevelReads level front →
      Derives .disjunction inner tree →
      (text : String) → (rest : List Token) →
      PartsMeet (around ++ front ++ .opening :: (inner ++ [.closing]) ++ .word text :: rest)

/-- A step that makes the report inside parentheses is where two parts meet. -/
theorem Reaches.partsMeet (h : Reaches tokens read s (token :: rest))
    (hstep : s.step rest token = .error (.unbalancedParentheses detail)) (hs : s.outer ≠ []) :
    detail = "缺少右括号" ∧ PartsMeet tokens := by
  obtain ⟨-, hover⟩ | ⟨hdetail, -, hbehind⟩ := State.step_eq_unbalanced hstep
  · exact absurd hover hs
  refine ⟨hdetail, ?_⟩
  rw [← h.read_append_rest]
  obtain ⟨around, front, last, hread, ho, hl, hp⟩ := h.reads
  obtain ⟨below, outer, houter⟩ := List.exists_cons_of_ne_nil hs
  rw [houter] at ho
  obtain ⟨tree, hphase, htoken⟩ | ⟨words, tree, hphase, hclause, rfl⟩ := hbehind
  · have hlast := h.closing_of_joint hphase
    rw [hphase] at hp
    cases hp with
    | joint hpart =>
      rw [hread, List.getLast?_append_of_ne_nil _ hpart.ne_nil] at hlast
      obtain ⟨inner, rfl, hinner⟩ := hpart.group_of_closing hlast
      rw [hread]
      obtain rfl | ⟨text, rfl⟩ := htoken
      · exact .opening ho hl hpart rest
      · exact .word ho hl hinner text rest
  · rw [hphase] at hp
    cases hp with
    | clause =>
      rw [hread]
      exact .opening ho hl (.of_clause hclause) rest

/-! ## The reader stops where parts meet -/

/-- The reader passes over a disjunction that waits. -/
theorem run_waiting_disjunction {waiting : Option Tree} {front : List Token}
    (h : WaitingReads .disjunction .or waiting front) (hs : s.level = .start)
    (after : Option Connective) (rest : List Token) :
    ∃ after', { s with phase := .part after }.run (front ++ rest) =
      { s with level := ⟨waiting, none⟩, phase := .part after' }.run rest := by
  cases h with
  | none =>
    refine ⟨after, ?_⟩
    obtain ⟨outer, depth, level, phase⟩ := s
    cases hs
    rfl
  | some hleft =>
    obtain ⟨level, last, rfl, hrun⟩ :=
      hleft.passes s after (.connective .or :: rest) (noWordNext_connective _ _) hs
    refine ⟨some .or, ?_⟩
    rw [List.append_assoc]
    exact hrun

/-- The reader passes over a conjunction that waits. -/
theorem run_waiting_conjunction {waiting : Option Tree} {front : List Token}
    (h : WaitingReads .conjunction .and waiting front) (hs : s.level.conjunction = none)
    (after : Option Connective) (rest : List Token) :
    ∃ after', { s with phase := .part after }.run (front ++ rest) =
      { s with level.conjunction := waiting, phase := .part after' }.run rest := by
  cases h with
  | none =>
    refine ⟨after, ?_⟩
    rw [← hs]
    rfl
  | some hleft =>
    obtain ⟨waiting, last, rfl, hrun⟩ :=
      hleft.passes s after (.connective .and :: rest) (noWordNext_connective _ _) hs
    refine ⟨some .and, ?_⟩
    rw [List.append_assoc]
    exact hrun

/-- The reader passes over what waits in a level. -/
theorem LevelReads.run {level : Level} {front : List Token} (h : LevelReads level front)
    (hs : s.level = .start) (after : Option Connective) (rest : List Token) :
    ∃ after', { s with phase := .part after }.run (front ++ rest) =
      { s with level, phase := .part after' }.run rest := by
  obtain ⟨before, within, rfl, hor, hand⟩ := h
  obtain ⟨middle, hrun⟩ := run_waiting_disjunction hor hs after (within ++ rest)
  obtain ⟨after', hrun'⟩ := run_waiting_conjunction hand
    (s := { s with level := ⟨level.disjunction, none⟩ }) rfl middle rest
  refine ⟨after', ?_⟩
  rw [List.append_assoc, hrun]
  exact hrun'

/-- The reader passes over the levels that are open. -/
theorem OuterReads.run {outer : List Level} {around : List Token} (h : OuterReads outer around)
    (rest : List Token) :
    precedence (around ++ rest) = State.run ⟨outer, outer.length, .start, .part none⟩ rest := by
  induction h generalizing rest with
  | nil => rfl
  | @cons level outer front back _ hback ih =>
    obtain ⟨after, hrun⟩ := hback.run
      (s := ⟨outer, outer.length, .start, .part none⟩) rfl none (.opening :: rest)
    rw [List.append_assoc, List.append_assoc, ih]
    exact hrun

/-- The reader passes over the levels that are open and over what waits in the present one. -/
theorem run_open {level : Level} {outer : List Level} {around front : List Token}
    (ho : OuterReads outer around) (hl : LevelReads level front) (rest : List Token) :
    ∃ after, precedence (around ++ front ++ rest) =
      State.run ⟨outer, outer.length, level, .part after⟩ rest := by
  obtain ⟨after, hrun⟩ := hl.run (s := ⟨outer, outer.length, .start, .part none⟩) rfl none rest
  refine ⟨after, ?_⟩
  rw [List.append_assoc, ho.run]
  exact hrun

/-- Where two parts meet inside parentheses, a closing parenthesis is missed. -/
theorem PartsMeet.precedence (h : PartsMeet tokens) :
    Parsing.precedence tokens = .error State.unclosed := by
  cases h with
  | @opening level below outer around front part tree ho hl hpart rest =>
    obtain ⟨after, hrun⟩ := run_open ho hl (part ++ .opening :: rest)
    have hpass := hpart.passes ⟨below :: outer, (below :: outer).length, level, .part none⟩ after
      (.opening :: rest) fun _ h => nomatch h
    rw [List.append_assoc, hrun]
    exact hpass
  | @word level below outer around front inner tree ho hl hinner text rest =>
    obtain ⟨after, hrun⟩ :=
      run_open ho hl (.opening :: (inner ++ [.closing]) ++ Token.word text :: rest)
    have hpass := run_group hinner.passes
      ⟨below :: outer, (below :: outer).length, level, .part none⟩ after (.word text :: rest)
    rw [List.append_assoc, hrun]
    exact hpass

/-! ## Reports on balanced parentheses -/

/-- Where more parentheses are open than closed, at the end or behind a beginning that closes none
too many, they do not match. -/
theorem Reaches.not_balanced_of_end (h : Reaches tokens read s []) (hs : s.outer ≠ []) :
    ¬Balanced tokens := by
  intro hb
  have hread := h.read_append_rest
  rw [List.append_nil] at hread
  have hlevels := h.levels.2
  rw [hread, hb.ends] at hlevels
  exact hs (List.eq_nil_of_length_eq_zero (by omega))

/-- A parenthesis that closes where no level is open matches none. -/
theorem Reaches.not_balanced_of_closing (h : Reaches tokens read s (.closing :: rest))
    (hs : s.outer = []) : ¬Balanced tokens := by
  intro hb
  have hbegins := hb.begins (read.length + 1)
  have htake : tokens.take (read.length + 1) = read ++ [.closing] := by
    rw [← h.read_append_rest, List.take_length_add_append]
    rfl
  have hlevels := h.levels.2
  rw [hs, List.length_nil, Nat.zero_add] at hlevels
  rw [htake, List.count_append, List.count_append, hlevels] at hbegins
  exact absurd (Nat.le_of_add_le_add_left hbegins) (by decide)

/-- The parentheses of tokens that are reported do not match, or two parts meet inside them. -/
theorem partsMeet_of_precedence
    (h : precedence tokens = .error (.unbalancedParentheses detail)) (hb : Balanced tokens) :
    detail = "缺少右括号" ∧ PartsMeet tokens := by
  have hstart : Reaches tokens [] .start tokens := .start
  obtain ⟨read, s, rest, hreach, ⟨rfl, hend⟩ | ⟨token, after, e, rfl, hstep, hend⟩⟩ := hstart.ends
  · rw [hend] at h
    exact absurd hb (hreach.not_balanced_of_end (State.finish_eq_unbalanced hreach.levels.1 h))
  · obtain rfl : e = .unbalancedParentheses detail := Except.error.inj (hend.symm.trans h)
    refine hreach.partsMeet hstep fun hover => ?_
    obtain ⟨rfl, -⟩ | ⟨-, hopen, -⟩ := State.step_eq_unbalanced hstep
    · exact hreach.not_balanced_of_closing hover hb
    · exact hopen hover

/-- **When the report is not true.** Whatever the rule and the limit are: that reading with
precedence reports parentheses, although those of the rule match, happens exactly if the rule is
within the limit, its parentheses match, and two parts meet inside them with no connective between.
The report is then that a closing parenthesis is missing. So in a rule without such a place every
report is true: more parentheses close than open up to some place, or as many do not close. -/
theorem unbalanced_and_balanced_iff (limit : Nat) (rule detail : String) :
    (⟨.precedence, limit⟩ : Parser).parse rule = .error (.unbalancedParentheses detail) ∧
        Balanced (Token.ofRule rule) ↔
      detail = "缺少右括号" ∧ depthBound (Token.ofRule rule) ≤ limit ∧
        Balanced (Token.ofRule rule) ∧ PartsMeet (Token.ofRule rule) := by
  rw [parse_precedence]
  constructor
  · rintro ⟨h, hb⟩
    split at h
    · cases h
    split at h
    · cases h
    · next hlimit =>
      obtain ⟨hdetail, hmeet⟩ := partsMeet_of_precedence h hb
      exact ⟨hdetail, Nat.le_of_not_lt hlimit, hb, hmeet⟩
  · rintro ⟨rfl, hlimit, hb, hmeet⟩
    have hne : ¬Text.allBlank rule := by
      rw [← Token.ofRule_eq_nil_iff]
      intro hnil
      have hreads := hmeet.precedence
      rw [hnil] at hreads
      cases hreads
    rw [if_neg hne, if_neg (Nat.not_lt_of_le hlimit)]
    exact ⟨hmeet.precedence, hb⟩

/-- A closing parenthesis is missed in a rule that has all of them. -/
theorem unbalanced_behind_clause :
    (⟨.precedence, 100⟩ : Parser).parse "( a = 1 ( b = 2 ) )" =
        .error (.unbalancedParentheses "缺少右括号") ∧
      Balanced (Token.ofRule "( a = 1 ( b = 2 ) )") := by
  have htokens : Token.ofRule "( a = 1 ( b = 2 ) )" =
      [.opening, .word "a", .word "=", .word "1", .opening, .word "b", .word "=", .word "2",
        .closing, .closing] := by decide
  have hinner : Balanced [.word "b", .word "=", .word "2"] :=
    .cons rfl (.cons rfl (.cons rfl .nil))
  have houter : Balanced [.word "a", .word "=", .word "1", .opening, .word "b", .word "=",
      .word "2", .closing] :=
    .cons rfl (.cons rfl (.cons rfl hinner.group))
  refine ⟨?_, ?_⟩
  · rfl
  · rw [htokens]
    exact houter.group

end Rulebook.Parsing
