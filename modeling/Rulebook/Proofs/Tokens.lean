import Rulebook.Parsing.Token

/-!
# The tokens of a rule

Making tokens of a text goes piece by piece: blanks part the text, and a parenthesis at the head or
the end of the text is a token before or behind those of the rest (`ofRule_blank`,
`ofRule_opening`, `ofRule_closing`). None of this asks what the rest is, since a piece of nothing
but parentheses, or of nothing at all, has just the tokens of its parentheses.

A word that is left after this is `Bare`: it has no blank, no parenthesis at its outside, and is no
connective. Bare words are their own and only tokens (`ofRule_of_bare`), and no other words are
among the tokens of any rule (`bare_of_mem_ofRule`).
-/

namespace Rulebook

/-! ## Pieces -/

namespace Text

variable {p : Char → Bool}

/-- A character that does not cut joins the last piece at the end of the text. -/
theorem splitOnP_concat_of_keep {c : Char} (hc : p c = false) (cs : List Char) :
    ∃ pieces last, cs.splitOnP p = pieces ++ [last] ∧
      (cs ++ [c]).splitOnP p = pieces ++ [last ++ [c]] := by
  induction cs with
  | nil =>
    refine ⟨[], [], List.splitOnP_nil, ?_⟩
    exact splitOnP_cons_of_keep hc List.splitOnP_nil
  | cons d cs ih =>
    obtain ⟨pieces, last, hcs, hconcat⟩ := ih
    rw [List.cons_append]
    cases hd : p d with
    | true =>
      refine ⟨[] :: pieces, last, ?_, ?_⟩
      · rw [splitOnP_cons_of_cut hd, hcs, List.cons_append]
      · rw [splitOnP_cons_of_cut hd, hconcat, List.cons_append]
    | false =>
      cases pieces with
      | nil =>
        exact ⟨[], d :: last, splitOnP_cons_of_keep hd hcs, splitOnP_cons_of_keep hd hconcat⟩
      | cons first pieces =>
        exact ⟨(d :: first) :: pieces, last, splitOnP_cons_of_keep hd hcs,
          splitOnP_cons_of_keep hd hconcat⟩

/-- A word of a text has a character. -/
theorem ne_nil_of_mem_words {text word : String} (h : word ∈ words text) : word.toList ≠ [] := by
  obtain ⟨piece, hpiece, rfl⟩ := List.mem_map.1 h
  rw [String.toList_ofList]
  simpa using (List.mem_filter.1 hpiece).2

/-- Blanks part the words. -/
theorem words_blank (front back : String) :
    words (front ++ " " ++ back) = words front ++ words back := by
  have hlist : (front ++ " " ++ back).toList = front.toList ++ ' ' :: back.toList := by simp
  rw [words, hlist, List.splitOnP_append_cons _ _ (by decide), List.filter_append, List.map_append,
    words, words]

end Text

namespace Parsing

/-- Words that stand for themselves: they cannot be taken for blanks, for parentheses or for a
connective. -/
structure Bare (text : String) : Prop where
  ne_nil : text.toList ≠ []
  unbroken : ∀ c ∈ text.toList, Text.isBlank c = false
  head_ne : text.toList.head? ≠ some '('
  last_ne : text.toList.getLast? ≠ some ')'
  no_connective : Connective.ofWord? text = none

namespace Token

/-! ## One word -/

theorem dropClosing_concat (cs : List Char) : dropClosing (cs ++ [')']) = dropClosing cs := by
  rw [dropClosing, List.reverse_append, List.reverse_singleton, List.singleton_append,
    List.dropWhile_cons_of_pos (by decide)]
  rfl

/-- What is dropped are the characters at the end. -/
theorem isPrefix_dropClosing (cs : List Char) : dropClosing cs <+: cs := by
  have hsuffix := List.dropWhile_suffix (· == ')') (l := cs.reverse)
  have hfront := List.reverse_prefix.2 hsuffix
  rwa [List.reverse_reverse] at hfront

theorem getLast?_dropClosing_ne (cs : List Char) : (dropClosing cs).getLast? ≠ some ')' := by
  intro h
  rw [dropClosing, List.getLast?_reverse] at h
  have := List.head?_dropWhile_not (· == ')') cs.reverse
  rw [h] at this
  exact absurd this (by decide)

theorem head?_dropOpening_ne (cs : List Char) : (cs.dropWhile (· == '(')).head? ≠ some '(' := by
  intro h
  have := List.head?_dropWhile_not (· == '(') cs
  rw [h] at this
  exact absurd this (by decide)

/-- A parenthesis at the head of a word is the first token of the word. -/
theorem ofWord_opening (cs : List Char) :
    ofWord (String.ofList ('(' :: cs)) = .opening :: ofWord (String.ofList cs) := by
  have hle := (List.dropWhile_suffix (· == '(') (l := cs)).length_le
  have hcount : cs.length + 1 - (cs.dropWhile (· == '(')).length =
      cs.length - (cs.dropWhile (· == '(')).length + 1 := by omega
  simp only [ofWord, String.toList_ofList, List.dropWhile_cons_of_pos, beq_self_eq_true,
    List.length_cons, hcount, List.replicate_succ, List.cons_append]

/-- A parenthesis at the end of a word is the last token of the word. -/
theorem ofWord_closing (cs : List Char) :
    ofWord (String.ofList (cs ++ [')'])) = ofWord (String.ofList cs) ++ [.closing] := by
  have htrim : (cs ++ [')']).dropWhile (· == '(') = cs.dropWhile (· == '(') ++ [')'] := by
    rw [List.dropWhile_append]
    split
    · next hempty =>
      rw [List.isEmpty_iff.1 hempty]
      rfl
    · rfl
  have hle := (isPrefix_dropClosing (cs.dropWhile (· == '('))).length_le
  have hcount : (cs.dropWhile (· == '(')).length + 1 -
      (dropClosing (cs.dropWhile (· == '('))).length =
      (cs.dropWhile (· == '(')).length - (dropClosing (cs.dropWhile (· == '('))).length + 1 := by
    omega
  simp only [ofWord, String.toList_ofList, htrim, dropClosing_concat, List.length_append,
    List.length_singleton, Nat.add_sub_add_right, hcount, List.replicate_succ', List.append_assoc]

theorem dropWhile_of_head_ne {c : Char} {cs : List Char} (h : cs.head? ≠ some c) :
    cs.dropWhile (· == c) = cs := by
  cases cs with
  | nil => rfl
  | cons d cs =>
    refine List.dropWhile_cons_of_neg ?_
    intro heq
    exact h (congrArg some (eq_of_beq heq))

/-- A word without a parenthesis at its outside gives up nothing. -/
theorem ofWord_of_ends {text : String} (hhead : text.toList.head? ≠ some '(')
    (hlast : text.toList.getLast? ≠ some ')') : ofWord text = ofCore text.toList := by
  have htrim := dropWhile_of_head_ne hhead
  have hcore : dropClosing text.toList = text.toList := by
    rw [← List.head?_reverse] at hlast
    rw [dropClosing, dropWhile_of_head_ne hlast, List.reverse_reverse]
  simp [ofWord, htrim, hcore]

/-- A bare word is its own token. -/
theorem ofWord_of_bare {text : String} (h : Bare text) : ofWord text = [.word text] := by
  have hne : text.toList.isEmpty = false := List.isEmpty_eq_false_iff.2 h.ne_nil
  rw [ofWord_of_ends h.head_ne h.last_ne]
  simp [ofCore, hne, h.no_connective]

/-- The words among the tokens of an unbroken word are bare. -/
theorem bare_of_mem_ofWord {cs : List Char} (hcs : ∀ c ∈ cs, Text.isBlank c = false)
    {text : String} (h : .word text ∈ ofWord (String.ofList cs)) : Bare text := by
  simp only [ofWord, String.toList_ofList, List.mem_append] at h
  rcases h with (h | h) | h
  · cases List.eq_of_mem_replicate h
  · -- the word is what stands between the parentheses
    have hfront := isPrefix_dropClosing (cs.dropWhile (· == '('))
    have hlast := getLast?_dropClosing_ne (cs.dropWhile (· == '('))
    have hhead := head?_dropOpening_ne cs
    have hmem : ∀ c ∈ dropClosing (cs.dropWhile (· == '(')), c ∈ cs := fun c hc =>
      (List.dropWhile_suffix (· == '(')).subset (hfront.subset hc)
    generalize dropClosing (cs.dropWhile (· == '(')) = core at *
    rw [ofCore] at h
    split at h
    · cases h
    · next hne =>
      split at h
      · cases List.mem_singleton.1 h
      · next hconnective =>
        cases List.mem_singleton.1 h
        refine ⟨?_, ?_, ?_, ?_, hconnective⟩
        · simpa using hne
        · intro c hc
          rw [String.toList_ofList] at hc
          exact hcs c (hmem c hc)
        · rw [String.toList_ofList]
          intro heq
          obtain ⟨rest, hrest⟩ := List.head?_eq_some_iff.1 heq
          obtain ⟨behind, hbehind⟩ := hfront
          rw [← hbehind, hrest] at hhead
          exact hhead rfl
        · rw [String.toList_ofList]
          exact hlast
  · cases List.eq_of_mem_replicate h

/-- Only nothing has no tokens: what is not between the parentheses of a word is a parenthesis. -/
theorem ofWord_eq_nil_iff {text : String} : ofWord text = [] ↔ text = "" := by
  refine ⟨fun h => ?_, fun h => by rw [h]; rfl⟩
  simp only [ofWord, List.append_eq_nil_iff, List.replicate_eq_nil_iff] at h
  obtain ⟨⟨hopening, hcore⟩, hclosing⟩ := h
  have hempty : (dropClosing (text.toList.dropWhile (· == '('))) = [] := by
    rw [ofCore] at hcore
    split at hcore
    · next hempty => exact List.isEmpty_iff.1 hempty
    · split at hcore <;> cases hcore
  rw [hempty, List.length_nil] at hclosing
  have hlength : text.toList.length = 0 := by omega
  exact String.toList_eq_nil_iff.1 (List.eq_nil_of_length_eq_zero hlength)

/-! ## Whole rules -/

/-- Pieces of nothing have no tokens, so all pieces may be taken for words. -/
theorem ofRule_eq_flatMap (rule : String) :
    ofRule rule = (rule.toList.splitOnP Text.isBlank).flatMap fun piece =>
      ofWord (String.ofList piece) := by
  rw [ofRule, Text.words, List.flatMap_map]
  induction rule.toList.splitOnP Text.isBlank with
  | nil => rfl
  | cons piece pieces ih =>
    cases piece with
    | nil => exact ih
    | cons c piece =>
      rw [List.filter_cons_of_pos rfl, List.flatMap_cons, List.flatMap_cons, ih]

/-- Blanks part the tokens. -/
theorem ofRule_blank (front back : String) :
    ofRule (front ++ " " ++ back) = ofRule front ++ ofRule back := by
  have hlist : (front ++ " " ++ back).toList = front.toList ++ ' ' :: back.toList := by simp
  rw [ofRule_eq_flatMap, hlist, List.splitOnP_append_cons _ _ (by decide), List.flatMap_append,
    ← ofRule_eq_flatMap, ← ofRule_eq_flatMap]

/-- A parenthesis at the head of a rule is its first token. -/
theorem ofRule_opening (rule : String) : ofRule ("(" ++ rule) = .opening :: ofRule rule := by
  have hlist : ("(" ++ rule).toList = '(' :: rule.toList := by simp
  obtain ⟨first, pieces, hsplit⟩ := Text.exists_splitOnP_eq_cons Text.isBlank rule.toList
  rw [ofRule_eq_flatMap, ofRule_eq_flatMap, hlist, Text.splitOnP_cons_of_keep (by decide) hsplit,
    hsplit, List.flatMap_cons, List.flatMap_cons, ofWord_opening, List.cons_append]

/-- A parenthesis at the end of a rule is its last token. -/
theorem ofRule_closing (rule : String) : ofRule (rule ++ ")") = ofRule rule ++ [.closing] := by
  have hlist : (rule ++ ")").toList = rule.toList ++ [')'] := by simp
  have hkeep : Text.isBlank ')' = false := by decide
  obtain ⟨pieces, last, hsplit, hconcat⟩ := Text.splitOnP_concat_of_keep hkeep rule.toList
  rw [ofRule_eq_flatMap, ofRule_eq_flatMap, hlist, hconcat, hsplit, List.flatMap_append,
    List.flatMap_append, List.flatMap_singleton, List.flatMap_singleton, ofWord_closing,
    List.append_assoc]

/-- A rule has no tokens exactly if it is blank. -/
theorem ofRule_eq_nil_iff {rule : String} : ofRule rule = [] ↔ Text.allBlank rule := by
  rw [← Text.words_eq_nil_iff, ofRule, List.flatMap_eq_nil_iff]
  refine ⟨fun h => List.eq_nil_iff_forall_not_mem.2 fun word hword => ?_, fun h => ?_⟩
  · exact Text.ne_nil_of_mem_words hword
      (String.toList_eq_nil_iff.2 (ofWord_eq_nil_iff.1 (h word hword)))
  · rw [h]
    exact fun _ hword => nomatch hword

/-- A bare word is the only token of itself. -/
theorem ofRule_of_bare {text : String} (h : Bare text) : ofRule text = [.word text] := by
  rw [ofRule_eq_flatMap, List.splitOnP_eq_singleton h.unbroken, List.flatMap_singleton,
    String.ofList_toList, ofWord_of_bare h]

/-- A connective is the only token of its word. -/
theorem ofRule_connective (c : Connective) : ofRule c.word = [.connective c] := by
  cases c <;> decide

/-- **All words of a rule are bare.** -/
theorem bare_of_mem_ofRule {rule text : String} (h : .word text ∈ ofRule rule) : Bare text := by
  rw [ofRule_eq_flatMap] at h
  obtain ⟨piece, hpiece, htoken⟩ := List.mem_flatMap.1 h
  exact bare_of_mem_ofWord (Text.not_mem_piece hpiece) htoken

end Token

end Parsing

end Rulebook
