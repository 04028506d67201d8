import Rulebook.Proofs.Grammar
import Rulebook.Proofs.Positional
import Rulebook.Proofs.Tokens

/-!
# What a rule shows is a rule

The text of a tree puts every join between parentheses, so it says how the tree is grouped whatever
binds tighter. Its tokens are those of the tree (`Tree.tokens`), and the grammar derives the tree
from them again, with each literal read from what is shown of it (`Tree.reread`). The limit that
admits the text is the number of leaves: it has one connective less than that, and the parentheses
are never nested deeper than there are connectives.

All this asks of the attributes and texts is that they can stand in a rule at all (`Tree.Plain`),
and whatever has been read from a rule can.
-/

namespace Rulebook

open Parsing

/-- Finite numbers and texts without blanks: the literals that stay in one piece. -/
def Literal.Solid : Literal → Prop
  | .number x => x.isFinite
  | .text s => ∀ c ∈ s.toList, Text.isBlank c = false

/-- A condition that can stand in a rule as it is shown. -/
structure Condition.Plain (c : Condition) : Prop where
  field : Bare c.field
  literal : c.literal.Solid

/-- A tree whose conditions can all stand in a rule. -/
def Tree.Plain (tree : Tree) : Prop := ∀ c ∈ tree.conditions, c.Plain

/-! ## Literals -/

/-- A word that begins with neither of the letters that connectives begin with is none. -/
theorem Connective.ofWord?_eq_none {word : String} {first : Char}
    (h : word.toList.head? = some first) (hand : first ≠ 'A') (hor : first ≠ 'O') :
    Connective.ofWord? word = none := by
  cases hword : Connective.ofWord? word with
  | none => rfl
  | some c =>
    rw [← Connective.word_of_ofWord? hword] at h
    cases c with
    | and => exact absurd (Option.some.inj h).symm hand
    | or => exact absurd (Option.some.inj h).symm hor

/-- An unbroken word can be told to be bare from its first and its last character. -/
theorem Parsing.bare_of_ends {word : String} {first last : Char}
    (hfirst : word.toList.head? = some first) (hlast : word.toList.getLast? = some last)
    (hunbroken : ∀ c ∈ word.toList, Text.isBlank c = false)
    (hends : first ≠ '(' ∧ last ≠ ')' ∧ first ≠ 'A' ∧ first ≠ 'O') : Bare word := by
  obtain ⟨hopening, hclosing, hand, hor⟩ := hends
  refine ⟨?_, hunbroken, ?_, ?_, Connective.ofWord?_eq_none hfirst hand hor⟩
  · intro hnil
    rw [hnil] at hfirst
    cases hfirst
  · rw [hfirst]
    exact fun heq => hopening (Option.some.inj heq)
  · rw [hlast]
    exact fun heq => hclosing (Option.some.inj heq)

/-- Digits, points and minus signs make a bare word. -/
theorem Parsing.bare_of_numeral {word : String} (hne : word.toList ≠ [])
    (hchars : ∀ c ∈ word.toList, Decimal.isDigit c ∨ c = '.' ∨ c = '-') : Bare word := by
  have hdistinct : ∀ c : Char, Decimal.isDigit c ∨ c = '.' ∨ c = '-' →
      Text.isBlank c = false ∧ c ≠ '(' ∧ c ≠ ')' ∧ c ≠ 'A' ∧ c ≠ 'O' := by
    rintro c (hdigit | rfl | rfl)
    · refine ⟨Decimal.isBlank_of_isDigit hdigit, ?_, ?_, ?_, ?_⟩
      all_goals
        rintro rfl
        exact absurd hdigit (by decide)
    · decide
    · decide
  have hfirst := List.head?_eq_some_head hne
  have hlast := List.getLast?_eq_some_getLast hne
  obtain ⟨-, hopening, -, hand, hor⟩ := hdistinct _ (hchars _ (List.head_mem hne))
  obtain ⟨-, -, hclosing, -⟩ := hdistinct _ (hchars _ (List.getLast_mem hne))
  exact bare_of_ends hfirst hlast (fun c hc => (hdistinct c (hchars c hc)).1)
    ⟨hopening, hclosing, hand, hor⟩

namespace Literal

theorem Solid.isFinite {literal : Literal} (h : literal.Solid) : literal.isFinite := by
  cases literal with
  | number x => exact h
  | text s => rfl

theorem bare_numberDisplay {x : Binary64} (h : x.isFinite) : Bare (numberDisplay x) := by
  obtain ⟨hne, hchars⟩ := numberDisplay_chars h
  exact bare_of_numeral hne hchars

theorem bare_quoted {text : String} (h : ∀ c ∈ text.toList, Text.isBlank c = false) :
    Bare ("'" ++ text ++ "'") := by
  have hlist : ("'" ++ text ++ "'").toList = '\'' :: (text.toList ++ ['\'']) := by simp
  have hhead : ("'" ++ text ++ "'").toList.head? = some '\'' := by
    rw [hlist]
    rfl
  have hlast : ("'" ++ text ++ "'").toList.getLast? = some '\'' := by
    rw [hlist, ← List.cons_append]
    exact List.getLast?_concat
  refine bare_of_ends hhead hlast ?_ (by decide)
  intro c hc
  rw [hlist] at hc
  rcases List.mem_cons.1 hc with rfl | hc
  · decide
  · rcases List.mem_append.1 hc with hc | hc
    · exact h c hc
    · rw [List.mem_singleton.1 hc]
      decide

/-- What is shown of a solid literal is one bare word. -/
theorem Solid.bare_display {literal : Literal} (h : literal.Solid) : Bare literal.display := by
  cases literal with
  | number x => exact bare_numberDisplay h
  | text s => exact bare_quoted h

/-- What is read from a word has no characters that the word does not have. -/
theorem mem_of_ofWord_eq_text {word text : String} (h : ofWord word = .text text) {c : Char}
    (hc : c ∈ text.toList) : c ∈ word.toList := by
  have htext : text = unquote word := by
    rw [ofWord] at h
    split at h
    · split at h
      · cases h
      · exact (Literal.text.inj h).symm
    · exact (Literal.text.inj h).symm
  subst htext
  cases hlist : word.toList with
  | nil =>
    simp only [unquote, hlist] at hc
    exact hc
  | cons first rest =>
    simp only [unquote, hlist] at hc
    split at hc
    · rw [String.toList_ofList] at hc
      exact List.mem_cons_of_mem _ ((List.dropLast_sublist rest).subset hc)
    · rw [hlist] at hc
      exact hc

/-- What is read from a bare word is solid. -/
theorem solid_ofWord {word : String} (h : Bare word) : (ofWord word).Solid := by
  cases hword : ofWord word with
  | number x =>
    have hfinite := isFinite_ofWord word
    rw [hword] at hfinite
    exact hfinite
  | text s => exact fun c hc => h.unbroken c (mem_of_ofWord_eq_text hword hc)

end Literal

/-! ## The tokens of what is shown -/

theorem Parsing.bare_sign (comparison : Comparison) : Bare comparison.sign := by
  have hlist : ∃ c, comparison.sign.toList = [c] ∧ Text.isBlank c = false ∧
      c ≠ '(' ∧ c ≠ ')' ∧ c ≠ 'A' ∧ c ≠ 'O' := by
    cases comparison with
    | greater => exact ⟨'>', rfl, by decide⟩
    | less => exact ⟨'<', rfl, by decide⟩
    | equal => exact ⟨'=', rfl, by decide⟩
  obtain ⟨c, hlist, hblank, hends⟩ := hlist
  have hhead : comparison.sign.toList.head? = some c := by
    rw [hlist]
    rfl
  have hlast : comparison.sign.toList.getLast? = some c := by
    rw [hlist]
    rfl
  refine bare_of_ends hhead hlast ?_ hends
  rw [hlist]
  exact List.forall_mem_singleton.2 hblank

namespace Tree

/-- The tokens that show a tree: every join between parentheses. -/
def tokens : Tree → List Token
  | .leaf c => [.word c.field, .word c.comparison.sign, .word c.literal.display]
  | .join c left right => .opening :: (left.tokens ++ .connective c :: right.tokens) ++ [.closing]

/-- The tree with every literal read from what is shown of it. -/
def reread : Tree → Tree
  | .leaf c => .leaf ⟨c.field, c.comparison, .ofWord c.literal.display⟩
  | .join c left right => .join c left.reread right.reread

theorem plain_join {c : Connective} {left right : Tree} :
    (join c left right).Plain ↔ left.Plain ∧ right.Plain := List.forall_mem_append

/-- The text of a plain tree has its tokens. -/
theorem ofRule_display {tree : Tree} (h : tree.Plain) :
    Token.ofRule tree.display = tree.tokens := by
  induction tree with
  | leaf c =>
    obtain ⟨hfield, hliteral⟩ := h c (List.mem_singleton_self c)
    rw [display, Condition.display, Token.ofRule_blank, Token.ofRule_blank,
      Token.ofRule_of_bare hfield, Token.ofRule_of_bare (bare_sign _),
      Token.ofRule_of_bare hliteral.bare_display]
    rfl
  | join c left right ihl ihr =>
    obtain ⟨hleft, hright⟩ := plain_join.1 h
    have hshape : (join c left right).display =
        "(" ++ (left.display ++ " " ++ c.word ++ " " ++ right.display) ++ ")" := by
      simp only [display, String.append_assoc]
    rw [hshape, Token.ofRule_closing, Token.ofRule_opening, Token.ofRule_blank,
      Token.ofRule_blank, ihl hleft, ihr hright, Token.ofRule_connective, tokens]
    simp only [List.append_assoc, List.singleton_append]

/-- The grammar derives the reread tree from the tokens of a tree. -/
theorem derives_tokens (tree : Tree) : Derives .part tree.tokens tree.reread := by
  induction tree with
  | leaf c => exact .clause c.field c.comparison c.literal.display
  | join c left right ihl ihr =>
    refine .group ?_
    cases c with
    | and => exact .conjunction (.and (.part ihl) ihr)
    | or => exact .or (.conjunction (.part ihl)) (.part ihr)

/-- Reading again changes no tree but for the signs of zeros. -/
theorem same_reread {tree : Tree} (h : tree.Plain) : tree.reread.same tree := by
  induction tree with
  | leaf c =>
    obtain ⟨-, hliteral⟩ := h c (List.mem_singleton_self c)
    have hsame := Literal.same_ofWord_display hliteral.isFinite
    simp only [reread, same, Condition.same, beq_self_eq_true, Bool.true_and]
    exact hsame
  | join c left right ihl ihr =>
    obtain ⟨hleft, hright⟩ := plain_join.1 h
    rw [reread, same, ihl hleft, ihr hright, beq_self_eq_true]
    rfl

/-! ## The limit of what is shown -/

/-- What is shown of a tree has a connective for each join. -/
theorem joints_tokens (tree : Tree) :
    joints tree.tokens = tree.joins .and + tree.joins .or := by
  induction tree with
  | leaf c => rfl
  | join c left right ihl ihr =>
    have hjoints : joints (join c left right).tokens =
        joints left.tokens + (joints right.tokens + 1) := by
      rw [tokens, joints_append]
      exact joints_append left.tokens (.connective c :: right.tokens)
    rw [hjoints, ihl, ihr]
    cases c <;> simp only [joins, reduceCtorEq, if_true, if_false] <;> omega

theorem le_nesting (opened : Nat) (tokens : List Token) : opened ≤ nesting opened tokens := by
  induction tokens with
  | nil => exact Nat.le_refl _
  | cons token rest ih =>
    cases token with
    | opening => exact Nat.le_max_left ..
    | closing => exact Nat.le_max_left ..
    | connective c => exact ih
    | word text => exact ih

/-- What is shown of a tree is nested one level less than the tree is high. -/
theorem nesting_tokens (tree : Tree) (opened : Nat) (rest : List Token) :
    nesting opened (tree.tokens ++ rest) =
      max (opened + tree.height - 1) (nesting opened rest) := by
  induction tree generalizing opened rest with
  | leaf c =>
    have hle := le_nesting opened rest
    show nesting opened rest = _
    rw [height]
    omega
  | join c left right ihl ihr =>
    have hl := left.height_pos
    have hr := right.height_pos
    have hle := le_nesting opened rest
    -- one parenthesis is open around both sides and closed behind them
    have hgroup : nesting opened ((join c left right).tokens ++ rest) =
        max opened (nesting (opened + 1)
          (left.tokens ++ .connective c :: (right.tokens ++ .closing :: rest))) := by
      simp only [tokens, List.cons_append, List.append_assoc, nesting, List.nil_append]
    have hclosing : nesting (opened + 1) (.closing :: rest) =
        max (opened + 1) (nesting opened rest) := rfl
    have hconnective : nesting (opened + 1) (.connective c :: (right.tokens ++ .closing :: rest)) =
        nesting (opened + 1) (right.tokens ++ .closing :: rest) := rfl
    rw [hgroup, ihl, hconnective, ihr, hclosing, height]
    omega

/-- The bound that is taken from the text of a tree is the number of its leaves. -/
theorem depthBound_tokens (tree : Tree) : depthBound tree.tokens = tree.leafCount := by
  have hnesting := tree.nesting_tokens 0 []
  have hheight := tree.height_le_joins
  rw [List.append_nil] at hnesting
  rw [depthBound, joints_tokens, hnesting, leafCount_eq_length, length_conditions, nesting]
  omega

end Tree

/-! ## What has been read -/

namespace Parsing

/-- A tree that is derived from bare words is plain. -/
theorem Derives.plain {k : Phrase} {tokens : List Token} {tree : Tree}
    (h : Derives k tokens tree) (hbare : ∀ text, .word text ∈ tokens → Bare text) :
    tree.Plain := by
  induction h with
  | clause field comparison word =>
    intro c hc
    cases List.mem_singleton.1 hc
    exact ⟨hbare field (by simp), Literal.solid_ofWord (hbare word (by simp))⟩
  | group _ ih =>
    exact ih fun text htext =>
      hbare text (List.mem_cons_of_mem _ (List.mem_append_left _ htext))
  | part _ ih | conjunction _ ih => exact ih hbare
  | and _ _ ihl ihr | or _ _ ihl ihr =>
    refine Tree.plain_join.2 ⟨ihl fun text htext => ?_, ihr fun text htext => ?_⟩
    · exact hbare text (List.mem_append_left _ htext)
    · exact hbare text (List.mem_append_right _ (List.mem_cons_of_mem _ htext))

/-- Trees that are read with precedence are plain and have no more leaves than the limit. -/
theorem plain_of_parse {limit : Nat} {rule : String} {tree : Tree}
    (h : (⟨.precedence, limit⟩ : Parser).parse rule = .ok tree) :
    tree.Plain ∧ tree.leafCount ≤ limit := by
  obtain ⟨hbound, hderives⟩ := parse_precedence_eq_ok.1 h
  refine ⟨hderives.plain fun text => Token.bare_of_mem_ofRule, ?_⟩
  have hjoins := hderives.spells.joins_eq
  rw [joints_filter] at hjoins
  rw [Tree.leafCount_eq_length, Tree.length_conditions, hjoins]
  exact Nat.le_trans (Nat.le_max_left ..) hbound

/-- What is shown of a plain tree is read as the tree. -/
theorem parse_display {limit : Nat} {tree : Tree} (h : tree.Plain) (hle : tree.leafCount ≤ limit) :
    (⟨.precedence, limit⟩ : Parser).parse tree.display = .ok tree.reread := by
  refine parse_precedence_eq_ok.2 ?_
  rw [Tree.ofRule_display h, Tree.depthBound_tokens]
  exact ⟨hle, .conjunction (.part tree.derives_tokens)⟩

/-- **What a rule shows is that rule.** A tree whose attributes are bare words, whose numbers are
finite and whose texts have no blanks is read back, with precedence, from its own text under every
limit that admits its leaves. Every tree that is read with precedence is such a tree, so showing it
and reading it again changes nothing. Numbers are compared as numbers: the zeros are equal. -/
theorem parse_display_of_plain (limit : Nat) :
    (∀ tree : Tree, tree.Plain → tree.leafCount ≤ limit →
      ∃ again, (⟨.precedence, limit⟩ : Parser).parse tree.display = .ok again ∧
        again.same tree) ∧
    ∀ (rule : String) (tree : Tree), (⟨.precedence, limit⟩ : Parser).parse rule = .ok tree →
      tree.Plain ∧ tree.leafCount ≤ limit ∧
        ∃ again, (⟨.precedence, limit⟩ : Parser).parse tree.display = .ok again ∧
          again.same tree := by
  refine ⟨?_, ?_⟩
  · intro tree hplain hle
    exact ⟨tree.reread, parse_display hplain hle, tree.same_reread hplain⟩
  · intro rule tree h
    obtain ⟨hplain, hle⟩ := plain_of_parse h
    exact ⟨hplain, hle, tree.reread, parse_display hplain hle, tree.same_reread hplain⟩

/-- A negative zero is shown without its sign, and parentheses inside words stay where they are. -/
theorem parse_display_negative_zero :
    (⟨.precedence, 2⟩ : Parser).parse "n(o)t < -0 AND b = '()'" = .ok
      (.join .and (.leaf ⟨"n(o)t", .less, .number (.finite true .zero)⟩)
        (.leaf ⟨"b", .equal, .text "()"⟩)) ∧
    ∃ again, (⟨.precedence, 2⟩ : Parser).parse "(n(o)t < 0 AND b = '()')" = .ok again ∧
      again.same (.join .and (.leaf ⟨"n(o)t", .less, .number (.finite true .zero)⟩)
        (.leaf ⟨"b", .equal, .text "()"⟩)) := by
  have hparse : (⟨.precedence, 2⟩ : Parser).parse "n(o)t < -0 AND b = '()'" = .ok
      (.join .and (.leaf ⟨"n(o)t", .less, .number (.finite true .zero)⟩)
        (.leaf ⟨"b", .equal, .text "()"⟩)) := by
    rfl
  have hdisplay : (Tree.join .and (.leaf ⟨"n(o)t", .less, .number (.finite true .zero)⟩)
      (.leaf ⟨"b", .equal, .text "()"⟩)).display = "(n(o)t < 0 AND b = '()')" := by
    have hunits : Magnitude.zero.units = 0 := rfl
    have hinteger : Binary64.integer? (.finite true .zero) = some 0 := by
      rw [Binary64.integer?, hunits, if_pos (Nat.zero_mod _), Binary64.position, hunits]
      exact congrArg some (Int.zero_ediv _)
    simp only [Tree.display, Condition.display, Literal.display, Literal.numberDisplay, hinteger]
    rfl
  obtain ⟨hshown, hread⟩ := parse_display_of_plain 2
  obtain ⟨hplain, hle, -⟩ := hread _ _ hparse
  rw [← hdisplay]
  exact ⟨hparse, hshown _ hplain hle⟩

end Parsing

end Rulebook
