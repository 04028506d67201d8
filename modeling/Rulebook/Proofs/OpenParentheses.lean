import Rulebook.Proofs.Display

/-!
# Open parentheses

Before a rule is read with precedence, its tokens are counted: how deep their parentheses nest, and
how many connectives there are. The larger count, the bound, is meant to limit two things, the
levels that the reader keeps around the present one and the depth of the tree that it gives. It does
so for any tokens, also for those on which the reader fails half way.

A state of the reader is one that it reaches from the start (`Reaches`). What one step does to the
levels is said once (`State.step_levels`): an opening parenthesis adds a level, a closing one that
the reader passes takes one away, and no other token does anything to them. So the levels are the
parentheses open in what has been read. The count ahead of the reader goes by the same steps, except
that it also goes on behind a closing parenthesis that nothing opened, where the reader does not.
-/

namespace Rulebook.Parsing

/-- The reader of the tokens comes to a state, having read the tokens `read`, with the tokens `rest`
still to come. -/
inductive Reaches (tokens : List Token) : List Token → State → List Token → Prop where
  | start : Reaches tokens [] .start tokens
  | step {read rest : List Token} {token : Token} {s next : State} :
      Reaches tokens read s (token :: rest) → s.step rest token = .ok next →
      Reaches tokens (read ++ [token]) next rest

/-! ## The levels of a state -/

/-- The counter of open parentheses is the number of levels around the present one. -/
def State.Counted (s : State) : Prop := s.depth = s.outer.length

/-- From one state to the next a token opens or closes a level as it is a parenthesis, and the
counter of the next state is right. -/
structure Moves (token : Token) (s next : State) : Prop where
  counted : next.Counted
  levels : next.outer.length + [token].count .closing = s.outer.length + [token].count .opening

namespace State

variable {s next : State} {rest : List Token} {token : Token}

theorem stepPart_levels {after : Option Connective} (hs : s.Counted)
    (h : s.stepPart after token = .ok next) : Moves token s next := by
  cases token with
  | opening =>
    cases h
    refine ⟨?_, rfl⟩
    rw [Counted, List.length_cons, hs]
  | word text =>
    cases h
    exact ⟨hs, rfl⟩
  | connective c => cases after <;> cases h
  | closing => cases after <;> cases h

theorem stepJoint_levels {tree : Tree} (hs : s.Counted)
    (h : s.stepJoint tree rest token = .ok next) : Moves token s next := by
  obtain ⟨outer, depth, level, phase⟩ := s
  cases token with
  | connective c =>
    cases c with
    | and =>
      cases h
      exact ⟨hs, rfl⟩
    | or =>
      cases h
      exact ⟨hs, rfl⟩
  | closing =>
    cases outer with
    | nil => cases h
    | cons below outer =>
      cases h
      refine ⟨?_, rfl⟩
      rw [Counted] at hs ⊢
      rw [hs, List.length_cons, Nat.add_sub_cancel]
  | opening => cases outer <;> cases h
  | word text => cases outer <;> cases h

/-- All that one step does to the levels. -/
theorem step_levels (hs : s.Counted) (h : s.step rest token = .ok next) : Moves token s next := by
  obtain ⟨outer, depth, level, phase⟩ := s
  cases phase with
  | part after => exact stepPart_levels hs h
  | joint tree => exact stepJoint_levels hs h
  | clause words =>
    cases token with
    | word text =>
      cases h
      exact ⟨hs, rfl⟩
    | opening | closing | connective c =>
      -- the clause that ends here is read first, which leaves the levels alone
      obtain ⟨tree, -, h⟩ := Except.bind_eq_ok.1 h
      exact stepJoint_levels hs h

end State

/-- The count ahead goes down by what a step takes from it. -/
theorem Moves.nesting_le {token : Token} {s next : State} (h : Moves token s next)
    (rest : List Token) :
    nesting next.outer.length rest ≤ nesting s.outer.length (token :: rest) := by
  have hlevels := h.levels
  cases token with
  | opening =>
    have hopened : next.outer.length = s.outer.length + 1 := hlevels
    rw [hopened]
    exact Nat.le_max_right ..
  | closing =>
    have hclosed : next.outer.length = s.outer.length - 1 := Nat.eq_sub_of_add_eq hlevels
    rw [hclosed]
    exact Nat.le_max_right ..
  | connective c =>
    have hsame : next.outer.length = s.outer.length := hlevels
    rw [hsame]
    exact Nat.le_refl _
  | word text =>
    have hsame : next.outer.length = s.outer.length := hlevels
    rw [hsame]
    exact Nat.le_refl _

namespace Reaches

variable {tokens read rest : List Token} {s : State}

/-! ## Reached states -/

theorem read_append_rest (h : Reaches tokens read s rest) : read ++ rest = tokens := by
  induction h with
  | start => rfl
  | step _ _ ih => rw [List.append_assoc, List.singleton_append, ih]

/-- What the reader says of its tokens is what it says from any state that it reaches. -/
theorem run_eq (h : Reaches tokens read s rest) : precedence tokens = s.run rest := by
  induction h with
  | start => rfl
  | step _ hstep ih =>
    rw [ih, State.run_cons, hstep]
    rfl

/-- The levels of a reached state are the parentheses that are open there, and its counter is their
number. -/
theorem levels (h : Reaches tokens read s rest) :
    s.Counted ∧ s.outer.length + read.count .closing = read.count .opening := by
  induction h with
  | start => exact ⟨rfl, rfl⟩
  | step _ hstep ih =>
    obtain ⟨hcounted, hlevels⟩ := ih
    have hmoves := State.step_levels hcounted hstep
    have hmoved := hmoves.levels
    refine ⟨hmoves.counted, ?_⟩
    rw [List.count_append, List.count_append]
    omega

/-- What is still to come nests no deeper than all the tokens do. -/
theorem nesting_le (h : Reaches tokens read s rest) :
    nesting s.outer.length rest ≤ nesting 0 tokens := by
  induction h with
  | start => exact Nat.le_refl _
  | @step read rest token s next hreach hstep ih =>
    have hmoves := State.step_levels hreach.levels.1 hstep
    exact Nat.le_trans (hmoves.nesting_le rest) ih

/-- No state has more levels than the bound says. -/
theorem levels_le (h : Reaches tokens read s rest) : s.outer.length ≤ depthBound tokens :=
  calc s.outer.length
    _ ≤ nesting s.outer.length rest := Tree.le_nesting ..
    _ ≤ nesting 0 tokens := h.nesting_le
    _ ≤ depthBound tokens := Nat.le_max_right ..

/-- From any reached state the reader goes on to one where it ends: all is read, or the next token
is refused. -/
theorem ends (h : Reaches tokens read s rest) : ∃ read' last rest',
    Reaches tokens read' last rest' ∧
      (rest' = [] ∧ precedence tokens = last.finish ∨
        ∃ token after e, rest' = token :: after ∧ last.step after token = .error e ∧
          precedence tokens = .error e) := by
  induction rest generalizing read s with
  | nil => exact ⟨read, s, [], h, .inl ⟨rfl, h.run_eq⟩⟩
  | cons token rest ih =>
    cases hstep : s.step rest token with
    | ok next => exact ih (h.step hstep)
    | error e =>
      refine ⟨read, s, token :: rest, h, .inr ⟨token, rest, e, rfl, hstep, ?_⟩⟩
      rw [h.run_eq, State.run_cons, hstep]
      rfl

end Reaches

/-! ## The bound -/

variable {tokens : List Token} {tree : Tree}

/-- A tree is no deeper than the bound of the tokens that it was read from. -/
theorem depth_le_of_precedence (h : precedence tokens = .ok tree) :
    tree.depth ≤ depthBound tokens := by
  have hspells := (precedence_eq_ok_iff.1 h).spells
  calc tree.depth
    _ = tree.height := tree.depth_eq_height
    _ ≤ joints (tokens.filter fun token => !token.isParenthesis) + 1 := hspells.height_le
    _ = joints tokens + 1 := by rw [joints_filter]
    _ ≤ depthBound tokens := Nat.le_max_left ..

/-- Reading with precedence, as one choice: a blank rule is refused, then one whose bound is above
the limit, and only then are the tokens read. -/
theorem parse_precedence (limit : Nat) (rule : String) :
    (⟨.precedence, limit⟩ : Parser).parse rule =
      if Text.allBlank rule then .error .emptyRule
      else if limit < depthBound (Token.ofRule rule) then
        .error (.depthExceeded (depthBound (Token.ofRule rule)) limit)
      else precedence (Token.ofRule rule) := by
  rw [Parser.parse]
  split
  · rfl
  · exact Parser.checkDepth_bind ..

/-- **The bound holds for all that is read.** Whatever the tokens of a rule are, in every state that
the reader comes to on them, up to the one where it ends well or badly, the levels around the
present one are the parentheses that are open; the counter is their number, and the bound is no
less. A tree that is read is no deeper than the bound. So under a limit the reader is either kept
from starting, with the bound in the error, or it stays within the limit all the way. (A blank rule
is refused before its bound is looked at.) -/
theorem reading_within_bound (limit : Nat) (rule : String) :
    (∀ read s rest, Reaches (Token.ofRule rule) read s rest →
      s.outer.length ≤ depthBound (Token.ofRule rule) ∧ s.depth = s.outer.length ∧
        s.outer.length + read.count .closing = read.count .opening ∧
        read ++ rest = Token.ofRule rule) ∧
    (∃ read s rest, Reaches (Token.ofRule rule) read s rest ∧
      (rest = [] ∧ precedence (Token.ofRule rule) = s.finish ∨
        ∃ token after e, rest = token :: after ∧ s.step after token = .error e ∧
          precedence (Token.ofRule rule) = .error e)) ∧
    (∀ tree, precedence (Token.ofRule rule) = .ok tree →
      tree.depth ≤ depthBound (Token.ofRule rule)) ∧
    (⟨.precedence, limit⟩ : Parser).parse rule =
      (if Text.allBlank rule then .error .emptyRule
      else if limit < depthBound (Token.ofRule rule) then
        .error (.depthExceeded (depthBound (Token.ofRule rule)) limit)
      else precedence (Token.ofRule rule)) ∧
    (depthBound (Token.ofRule rule) ≤ limit →
      (∀ read s rest, Reaches (Token.ofRule rule) read s rest → s.outer.length ≤ limit) ∧
        ∀ tree, (⟨.precedence, limit⟩ : Parser).parse rule = .ok tree → tree.depth ≤ limit) := by
  refine ⟨?_, Reaches.start.ends, fun tree h => depth_le_of_precedence h,
    parse_precedence limit rule, ?_⟩
  · intro read s rest h
    obtain ⟨hcounted, hlevels⟩ := h.levels
    exact ⟨h.levels_le, hcounted, hlevels, h.read_append_rest⟩
  · intro hbound
    refine ⟨fun read s rest h => Nat.le_trans h.levels_le hbound, ?_⟩
    intro tree h
    obtain ⟨-, hderives⟩ := parse_precedence_eq_ok.1 h
    exact Nat.le_trans (depth_le_of_precedence (precedence_eq_ok_iff.2 hderives)) hbound

/-- One parenthesis too many is closed, behind a part that two are open around. The reader, with the
limit at the bound, has two levels at the deepest place and fails later. Where it ends well, the
tree may be as deep as the bound. -/
theorem reading_within_bound_unopened :
    Reaches (Token.ofRule "((a = 1))) OR b") [.opening, .opening]
      ⟨[.start, .start], 2, .start, .part none⟩
      [.word "a", .word "=", .word "1", .closing, .closing, .closing, .connective .or, .word "b"] ∧
    2 ≤ depthBound (Token.ofRule "((a = 1))) OR b") ∧
    depthBound (Token.ofRule "((a = 1))) OR b") ≤ 2 ∧
    (∀ read s rest, Reaches (Token.ofRule "((a = 1))) OR b") read s rest → s.outer.length ≤ 2) ∧
    (⟨.precedence, 2⟩ : Parser).parse "((a = 1))) OR b" = .error State.unopened ∧
    depthBound (Token.ofRule "a = x AND (b = y OR c = z)") ≤ 3 ∧
    (⟨.precedence, 3⟩ : Parser).parse "a = x AND (b = y OR c = z)" = .ok
      (.join .and (.leaf ⟨"a", .equal, .text "x"⟩)
        (.join .or (.leaf ⟨"b", .equal, .text "y"⟩) (.leaf ⟨"c", .equal, .text "z"⟩))) ∧
    (Tree.join .and (.leaf ⟨"a", .equal, .text "x"⟩)
      (.join .or (.leaf ⟨"b", .equal, .text "y"⟩) (.leaf ⟨"c", .equal, .text "z"⟩))).depth ≤ 3 := by
  have htokens : Token.ofRule "((a = 1))) OR b" =
      [.opening, .opening, .word "a", .word "=", .word "1", .closing, .closing, .closing,
        .connective .or, .word "b"] := by decide
  have hreaches : Reaches (Token.ofRule "((a = 1))) OR b") [.opening, .opening]
      ⟨[.start, .start], 2, .start, .part none⟩
      [.word "a", .word "=", .word "1", .closing, .closing, .closing, .connective .or,
        .word "b"] := by
    rw [htokens]
    exact .step (.step .start rfl) rfl
  obtain ⟨hstates, -, -, hparse, hwithin⟩ := reading_within_bound 2 "((a = 1))) OR b"
  have hbound : depthBound (Token.ofRule "((a = 1))) OR b") = 2 := by
    rw [htokens]
    decide
  have hfails : (⟨.precedence, 2⟩ : Parser).parse "((a = 1))) OR b" = .error State.unopened := by
    rw [hparse, hbound, if_neg (by decide), if_neg (by decide), htokens]
    rfl
  have hdeep : depthBound (Token.ofRule "a = x AND (b = y OR c = z)") ≤ 3 := by decide
  obtain ⟨-, -, -, -, htree⟩ := reading_within_bound 3 "a = x AND (b = y OR c = z)"
  exact ⟨hreaches, (hstates _ _ _ hreaches).1, Nat.le_of_eq hbound,
    (hwithin (Nat.le_of_eq hbound)).1, hfails, hdeep, rfl, (htree hdeep).2 _ rfl⟩

end Rulebook.Parsing
