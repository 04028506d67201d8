import Rulebook.Proofs.Modes

/-!
# The characters of a rule

Making tokens takes a rule apart and loses nothing but its blanks: written one behind the other, the
tokens are the rule without them. This is so for each word (`Token.written_ofWord`), by taking
parentheses off its outside until there are none, and the words are the characters that are not
blank (`Text.flatten_splitOnP`).

How many parentheses a word gives up may be found from its length in bytes before and after they are
dropped, whatever other characters the word has: a parenthesis is one byte
(`Token.ofWord_eq_ofWordInBytes`).
-/

namespace Rulebook

namespace Text

/-! ## Characters that are kept -/

/-- The pieces of a text are all its characters but those at which it is cut. -/
theorem flatten_splitOnP (p : Char → Bool) (cs : List Char) :
    (cs.splitOnP p).flatten = cs.filter fun c => !p c := by
  induction cs with
  | nil => rw [List.splitOnP_nil]; rfl
  | cons c cs ih =>
    cases hc : p c with
    | true =>
      rw [splitOnP_cons_of_cut hc, List.flatten_cons, List.nil_append, ih,
        List.filter_cons_of_neg (by simp [hc])]
    | false =>
      obtain ⟨first, pieces, hcs⟩ := exists_splitOnP_eq_cons p cs
      rw [splitOnP_cons_of_keep hc hcs, List.filter_cons_of_pos (by simp [hc]), ← ih, hcs]
      rfl

/-! ## Bytes -/

/-- Characters of one byte each. -/
theorem utf8ByteSize_ofList {cs : List Char} (h : ∀ c ∈ cs, c.utf8Size = 1) :
    (String.ofList cs).utf8ByteSize = cs.length := by
  induction cs with
  | nil => rfl
  | cons c cs ih =>
    obtain ⟨hc, hcs⟩ := List.forall_mem_cons.1 h
    rw [String.ofList_cons, String.utf8ByteSize_append, String.utf8ByteSize_singleton, hc, ih hcs,
      List.length_cons, Nat.add_comm]

/-- Where characters of one byte are dropped at the head, as many bytes are dropped. -/
theorem utf8ByteSize_sub_dropWhile {c : Char} (hc : c.utf8Size = 1) (cs : List Char) :
    (String.ofList cs).utf8ByteSize - (String.ofList (cs.dropWhile (· == c))).utf8ByteSize =
      cs.length - (cs.dropWhile (· == c)).length := by
  have hdropped : (String.ofList (cs.takeWhile (· == c))).utf8ByteSize =
      (cs.takeWhile (· == c)).length := by
    refine utf8ByteSize_ofList fun d hd => ?_
    have hall := List.all_eq_true.1 List.all_takeWhile d hd
    rw [eq_of_beq hall, hc]
  have hsplit := @List.takeWhile_append_dropWhile _ (· == c) cs
  have hbytes := congrArg (fun list => (String.ofList list).utf8ByteSize) hsplit
  have hlength := congrArg List.length hsplit
  simp only [String.ofList_append, String.utf8ByteSize_append, List.length_append] at hbytes hlength
  omega

/-- The bytes of a text do not depend on the order of its characters. -/
theorem utf8ByteSize_reverse (cs : List Char) :
    (String.ofList cs.reverse).utf8ByteSize = (String.ofList cs).utf8ByteSize := by
  induction cs with
  | nil => rfl
  | cons c cs ih =>
    rw [List.reverse_cons, String.ofList_append, String.utf8ByteSize_append, ih, Nat.add_comm,
      ← String.utf8ByteSize_append, ← String.ofList_append, List.singleton_append]

end Text

namespace Parsing.Token

/-! ## Tokens one behind the other -/

/-- The characters of tokens with nothing between them. -/
def written (tokens : List Token) : String := String.join (tokens.map display)

@[simp] theorem written_cons (token : Token) (tokens : List Token) :
    written (token :: tokens) = token.display ++ written tokens := String.join_cons

@[simp] theorem written_append (front back : List Token) :
    written (front ++ back) = written front ++ written back := by
  rw [written, List.map_append, String.join_append]
  rfl

theorem written_ofCore (core : List Char) : written (ofCore core) = String.ofList core := by
  unfold ofCore
  split
  · next hempty =>
    rw [List.isEmpty_iff.1 hempty]
    rfl
  · split
    · next c hconnective =>
      rw [written_cons, ← Connective.word_of_ofWord? hconnective]
      exact String.append_empty
    · rw [written_cons]
      exact String.append_empty

/-- The tokens of a word write it. -/
theorem written_ofWord (cs : List Char) :
    written (ofWord (String.ofList cs)) = String.ofList cs := by
  induction hlength : cs.length generalizing cs with
  | zero =>
    rw [List.eq_nil_of_length_eq_zero hlength]
    rfl
  | succ n ih =>
    by_cases hhead : cs.head? = some '('
    · obtain ⟨rest, rfl⟩ := List.head?_eq_some_iff.1 hhead
      rw [ofWord_opening, written_cons, ih rest (by simpa using hlength), String.ofList_cons]
      rfl
    · by_cases hlast : cs.getLast? = some ')'
      · obtain ⟨front, rfl⟩ := List.getLast?_eq_some_iff.1 hlast
        rw [ofWord_closing, written_append, ih front (by simpa using hlength), String.ofList_append]
        rfl
      · -- nothing is left to take off
        rw [ofWord_of_ends (by rwa [String.toList_ofList]) (by rwa [String.toList_ofList]),
          String.toList_ofList, written_ofCore]

/-- The tokens of pieces write the pieces one behind the other. -/
theorem written_flatMap_ofWord (pieces : List (List Char)) :
    written (pieces.flatMap fun piece => ofWord (String.ofList piece)) =
      String.ofList pieces.flatten := by
  induction pieces with
  | nil => rfl
  | cons piece pieces ih =>
    rw [List.flatMap_cons, written_append, written_ofWord, ih, List.flatten_cons,
      String.ofList_append]

/-- The tokens of a rule write it without its blanks. -/
theorem written_ofRule (rule : String) :
    written (ofRule rule) = String.ofList (rule.toList.filter fun c => !Text.isBlank c) := by
  rw [ofRule_eq_flatMap, written_flatMap_ofWord, Text.flatten_splitOnP]

/-- A word that keeps its parentheses is shown as it is. -/
theorem display_whole (word : String) : (whole word).display = word := by
  unfold whole
  split
  · next hconnective => exact Connective.word_of_ofWord? hconnective
  · rfl

/-! ## Parentheses counted in bytes -/

/-- The tokens of a word, with its parentheses counted as the bytes that are dropped with them. -/
def ofWordInBytes (word : String) : List Token :=
  let trimmed := String.ofList (word.toList.dropWhile (· == '('))
  let core := String.ofList (dropClosing trimmed.toList)
  List.replicate (word.utf8ByteSize - trimmed.utf8ByteSize) .opening ++ ofCore core.toList ++
    List.replicate (trimmed.utf8ByteSize - core.utf8ByteSize) .closing

/-- Where characters of one byte are dropped at the end, as many bytes are dropped. -/
theorem utf8ByteSize_sub_dropClosing (cs : List Char) :
    (String.ofList cs).utf8ByteSize - (String.ofList (dropClosing cs)).utf8ByteSize =
      cs.length - (dropClosing cs).length := by
  have hreverse := Text.utf8ByteSize_sub_dropWhile (c := ')') (by decide) cs.reverse
  rw [Text.utf8ByteSize_reverse, List.length_reverse] at hreverse
  rw [dropClosing, Text.utf8ByteSize_reverse, List.length_reverse]
  exact hreverse

/-- **Bytes or characters.** The parentheses of a word may be counted either way. -/
theorem ofWord_eq_ofWordInBytes (word : String) : ofWord word = ofWordInBytes word := by
  have hopening := Text.utf8ByteSize_sub_dropWhile (c := '(') (by decide) word.toList
  have hclosing := utf8ByteSize_sub_dropClosing (word.toList.dropWhile (· == '('))
  rw [String.ofList_toList] at hopening
  simp only [ofWord, ofWordInBytes, String.toList_ofList, hopening, hclosing]

/-! ## The tokens and the text -/

/-- **The tokens of a rule lose and invent nothing.** Written one behind the other, they are the
rule without its blanks. Their words have characters, no blanks, no parenthesis at the outside that
could be a token, and are no connectives. There are no tokens exactly if the rule is blank.
Parentheses may be counted by the bytes that are dropped with them. If no word of the rule has an
opening parenthesis at its head or a closing one at its end, the tokens are the words, one for
one. -/
theorem tokens_keep_characters (rule : String) :
    String.join ((ofRule rule).map display) =
      String.ofList (rule.toList.filter fun c => !Text.isBlank c) ∧
    (∀ text, .word text ∈ ofRule rule →
      text ≠ "" ∧ (∀ c ∈ text.toList, Text.isBlank c = false) ∧
      text.toList.head? ≠ some '(' ∧ text.toList.getLast? ≠ some ')' ∧
      text ≠ "AND" ∧ text ≠ "OR") ∧
    (ofRule rule = [] ↔ ∀ c ∈ rule.toList, Text.isBlank c) ∧
    ofRule rule = (Text.words rule).flatMap ofWordInBytes ∧
    ((∀ word ∈ Text.words rule,
        word.toList.head? ≠ some '(' ∧ word.toList.getLast? ≠ some ')') →
      ofRule rule = (Text.words rule).map whole ∧
        (ofRule rule).map display = Text.words rule) := by
  refine ⟨written_ofRule rule, fun text htext => ?_, ?_, ?_, fun h => ?_⟩
  · obtain ⟨hne, hunbroken, hhead, hlast, hconnective⟩ := bare_of_mem_ofRule htext
    refine ⟨?_, hunbroken, hhead, hlast, ?_, ?_⟩
    · rintro rfl
      exact hne rfl
    · rintro rfl
      cases hconnective
    · rintro rfl
      cases hconnective
  · rw [ofRule_eq_nil_iff, Text.allBlank, List.all_eq_true]
  · rw [ofRule, funext ofWord_eq_ofWordInBytes]
  · have hwhole := Unwrapped.ofRule h
    refine ⟨hwhole, ?_⟩
    rw [hwhole, List.map_map]
    exact List.map_id'' display_whole _

/-- Words with parentheses inside, or the wrong way round at the outside, between blanks of other
kinds than a space. -/
theorem tokens_keep_characters_inside :
    (∀ word ∈ Text.words "n(o)t\u00a0= '日(本)'\tAND\u3000x > )(",
      word.toList.head? ≠ some '(' ∧ word.toList.getLast? ≠ some ')') ∧
    ofRule "n(o)t\u00a0= '日(本)'\tAND\u3000x > )(" =
      [.word "n(o)t", .word "=", .word "'日(本)'", .connective .and, .word "x", .word ">",
        .word ")("] ∧
    .word ")(" ∈ ofRule "n(o)t\u00a0= '日(本)'\tAND\u3000x > )(" ∧
    ")(".toList.head? ≠ some '(' ∧ ")(".toList.getLast? ≠ some ')' := by
  have hends : ∀ word ∈ Text.words "n(o)t\u00a0= '日(本)'\tAND\u3000x > )(",
      word.toList.head? ≠ some '(' ∧ word.toList.getLast? ≠ some ')' := by decide
  obtain ⟨-, hbare, -, -, hwords⟩ :=
    tokens_keep_characters "n(o)t\u00a0= '日(本)'\tAND\u3000x > )("
  obtain ⟨hrule, -⟩ := hwords hends
  have hmem : .word ")(" ∈ ofRule "n(o)t\u00a0= '日(本)'\tAND\u3000x > )(" := by
    rw [hrule]
    decide
  obtain ⟨-, -, hhead, hlast, -⟩ := hbare ")(" hmem
  exact ⟨hends, hrule, hmem, hhead, hlast⟩

end Parsing.Token

end Rulebook
