import Rulebook.Proofs.Positional

/-!
# Literals between quotes

A word that writes no finite number is a text, and it may stand between two quotes that are alike.
One such pair is taken off and no more (`Literal.ofWord_eq_text_iff`), which is why a text that is
shown between quotes is read back whatever it is, with quotes of its own or like a number.

The quotes may be cut off by offsets in bytes, one byte from the start and one from the end. A cut
inside a character would have no result (`Text.slice?`), but there is none: the characters that are
cut off are quotes, and those are one byte each (`Literal.sliceQuotes?_eq`).
-/

namespace Rulebook

/-! ## Slices -/

namespace Text

/-- The text between two offsets in bytes; nothing if one of them is inside a character or beyond
the end, or if they are in the wrong order. -/
def slice? (text : String) (start stop : Nat) : Option String :=
  if h : (⟨start⟩ : String.Pos.Raw).IsValid text ∧ (⟨stop⟩ : String.Pos.Raw).IsValid text ∧
      start ≤ stop then
    some (text.extract ⟨⟨start⟩, h.1⟩ ⟨⟨stop⟩, h.2.1⟩)
  else none

/-- A text that is made of three texts can be cut between them. -/
theorem slice?_append (front middle back : String) :
    slice? (front ++ middle ++ back) front.utf8ByteSize
      (front.utf8ByteSize + middle.utf8ByteSize) = some middle := by
  have hstart : (⟨front.utf8ByteSize⟩ : String.Pos.Raw).IsValid (front ++ middle ++ back) :=
    String.Pos.Raw.isValid_iff_exists_append.2
      ⟨front, middle ++ back, String.append_assoc .., rfl⟩
  have hstop : (⟨front.utf8ByteSize + middle.utf8ByteSize⟩ : String.Pos.Raw).IsValid
      (front ++ middle ++ back) := by
    refine String.Pos.Raw.isValid_iff_exists_append.2 ⟨front ++ middle, back, rfl, ?_⟩
    rw [← String.utf8ByteSize_append]
    rfl
  have hbytes : (front ++ middle ++ back).toByteArray.extract (front.toByteArray.size + 0)
      (front.toByteArray.size + middle.toByteArray.size) = middle.toByteArray := by
    rw [String.append_assoc, String.toByteArray_append, ByteArray.extract_append_size_add,
      String.toByteArray_append, ByteArray.extract_append_size_left, ByteArray.extract_zero_size]
  rw [slice?, dif_pos ⟨hstart, hstop, Nat.le_add_right _ _⟩]
  exact congrArg some (String.toByteArray_inj.1 (String.toByteArray_extract.trans hbytes))

end Text

namespace Literal

/-! ## One pair of quotes -/

/-- The word is the text between two quotes that are alike. -/
def Quotes (word text : String) : Prop :=
  ∃ quote, isQuote quote ∧ word = String.singleton quote ++ text ++ String.singleton quote

theorem quotes_iff {word text : String} :
    Quotes word text ↔
      ∃ quote, isQuote quote ∧ word.toList = quote :: (text.toList ++ [quote]) := by
  refine exists_congr fun quote => and_congr_right fun _ => ?_
  rw [← String.toList_inj]
  simp

/-- A pair of quotes is taken off. -/
theorem unquote_of_quotes {word text : String} (h : Quotes word text) : unquote word = text := by
  obtain ⟨quote, hquote, hlist⟩ := quotes_iff.1 h
  simp only [unquote, hlist, hquote, List.getLast?_concat, List.dropLast_concat, beq_self_eq_true,
    Bool.true_and, if_true, String.ofList_toList]

/-- A word without a pair of quotes stays as it is. -/
theorem unquote_of_not_quotes {word : String} (h : ¬∃ text, Quotes word text) :
    unquote word = word := by
  unfold unquote
  split
  · next first rest hlist =>
    split
    · next hpair =>
      rw [Bool.and_eq_true, beq_iff_eq] at hpair
      obtain ⟨hquote, hlast⟩ := hpair
      obtain ⟨inner, rfl⟩ := List.getLast?_eq_some_iff.1 hlast
      refine absurd ⟨String.ofList inner, quotes_iff.2 ⟨first, hquote, ?_⟩⟩ h
      rw [hlist, String.toList_ofList]
    · rfl
  · rfl

/-- What is left of a word is what stands between its quotes, or the word if it has none. -/
theorem unquote_eq_iff {word text : String} :
    unquote word = text ↔ Quotes word text ∨ (text = word ∧ ¬∃ inner, Quotes word inner) := by
  by_cases hquotes : ∃ inner, Quotes word inner
  · obtain ⟨inner, hinner⟩ := hquotes
    rw [unquote_of_quotes hinner]
    refine ⟨fun h => .inl (h ▸ hinner), fun h => ?_⟩
    obtain htext | ⟨-, hnone⟩ := h
    · rw [← unquote_of_quotes hinner, unquote_of_quotes htext]
    · exact absurd ⟨inner, hinner⟩ hnone
  · rw [unquote_of_not_quotes hquotes]
    refine ⟨fun h => .inr ⟨h.symm, hquotes⟩, fun h => ?_⟩
    obtain htext | ⟨htext, -⟩ := h
    · exact absurd ⟨text, htext⟩ hquotes
    · exact htext.symm

/-! ## Numbers and texts -/

/-- A word is a number exactly if it writes a finite one. -/
theorem ofWord_eq_number_iff {word : String} {x : Binary64} :
    ofWord word = .number x ↔ Binary64.read? word = some x ∧ x.isFinite := by
  constructor
  · intro h
    unfold ofWord at h
    split at h
    · next y hread =>
      split at h
      · next hfinite =>
        cases h
        exact ⟨hread, hfinite⟩
      · cases h
    · cases h
  · rintro ⟨hread, hfinite⟩
    rw [ofWord, hread]
    exact if_pos hfinite

/-- Any other word is a text, less a pair of quotes around it. -/
theorem ofWord_of_not_number {word : String}
    (h : ¬∃ x, Binary64.read? word = some x ∧ x.isFinite) : ofWord word = .text (unquote word) := by
  unfold ofWord
  split
  · next x hread => exact if_neg fun hfinite => h ⟨x, hread, hfinite⟩
  · rfl

theorem ofWord_eq_text_iff {word text : String} :
    ofWord word = .text text ↔
      (¬∃ x, Binary64.read? word = some x ∧ x.isFinite) ∧
      (Quotes word text ∨ (text = word ∧ ¬∃ inner, Quotes word inner)) := by
  rw [← unquote_eq_iff]
  constructor
  · intro h
    have hnumber : ¬∃ x, Binary64.read? word = some x ∧ x.isFinite := by
      rintro ⟨x, hx⟩
      rw [ofWord_eq_number_iff.2 hx] at h
      cases h
    rw [ofWord_of_not_number hnumber] at h
    exact ⟨hnumber, Literal.text.inj h⟩
  · rintro ⟨hnumber, htext⟩
    rw [ofWord_of_not_number hnumber, htext]

/-- The zeros are shown alike. -/
theorem numberDisplay_zero (negative : Bool) : numberDisplay (.finite negative .zero) = "0" := by
  have hunits : Magnitude.zero.units = 0 := rfl
  have hinteger : Binary64.integer? (.finite negative .zero) = some 0 := by
    rw [Binary64.integer?, hunits, if_pos (Nat.zero_mod _), Binary64.position, hunits]
    cases negative <;> exact congrArg some (Int.zero_ediv _)
  rw [numberDisplay, hinteger]
  rfl

/-! ## Quotes cut off by bytes -/

/-- The word less its first and its last byte, if it begins with a quote, has at least two bytes and
ends with the same quote. There is no result if such a cut goes through a character. -/
def sliceQuotes? (word : String) : Option String :=
  match word.toList.head? with
  | some quote =>
    if isQuote quote && decide (2 ≤ word.utf8ByteSize) && word.toList.getLast? == some quote then
      Text.slice? word 1 (word.utf8ByteSize - 1)
    else some word
  | none => some word

/-- A quote is one byte. -/
theorem utf8Size_of_isQuote {quote : Char} (h : isQuote quote) : quote.utf8Size = 1 := by
  rw [isQuote, Bool.or_eq_true, beq_iff_eq, beq_iff_eq] at h
  obtain rfl | rfl := h <;> rfl

/-- Between two quotes the cuts go through no character. -/
theorem sliceQuotes?_of_quotes {word text : String} (h : Quotes word text) :
    sliceQuotes? word = some text := by
  obtain ⟨quote, hquote, rfl⟩ := h
  have hone : (String.singleton quote).utf8ByteSize = 1 := by
    rw [String.utf8ByteSize_singleton, utf8Size_of_isQuote hquote]
  have hslice := Text.slice?_append (String.singleton quote) text (String.singleton quote)
  have hsize : (String.singleton quote ++ text ++ String.singleton quote).utf8ByteSize =
      text.utf8ByteSize + 2 := by
    rw [String.utf8ByteSize_append, String.utf8ByteSize_append, hone]
    omega
  have hstop : text.utf8ByteSize + 2 - 1 = 1 + text.utf8ByteSize := by omega
  have hlist : (String.singleton quote ++ text ++ String.singleton quote).toList =
      quote :: (text.toList ++ [quote]) := by simp
  have hlast : (quote :: (text.toList ++ [quote])).getLast? = some quote := by
    rw [← List.cons_append, List.getLast?_concat]
  have hends : (isQuote quote && decide (2 ≤ text.utf8ByteSize + 2) &&
      some quote == some quote) = true := by
    simp [hquote]
  rw [hone] at hslice
  simp only [sliceQuotes?, hlist, List.head?_cons, hsize, hlast]
  rw [if_pos hends, hstop, hslice]

/-- The condition under which bytes are cut off holds only for a pair of quotes. -/
theorem quotes_of_ends {word : String} {quote : Char} (hquote : isQuote quote)
    (hhead : word.toList.head? = some quote) (hsize : 2 ≤ word.utf8ByteSize)
    (hlast : word.toList.getLast? = some quote) : ∃ text, Quotes word text := by
  obtain ⟨rest, hlist⟩ := List.head?_eq_some_iff.1 hhead
  obtain rfl | ⟨inner, last, rfl⟩ := List.eq_nil_or_concat rest
  · -- a quote alone is both the first and the last character, and one byte
    have hword : word = String.singleton quote := by
      rw [← String.toList_inj, hlist, String.toList_singleton]
    rw [hword, String.utf8ByteSize_singleton, utf8Size_of_isQuote hquote] at hsize
    omega
  · rw [hlist, List.concat_eq_append, ← List.cons_append, List.getLast?_concat] at hlast
    obtain rfl := Option.some.inj hlast
    refine ⟨String.ofList inner, quotes_iff.2 ⟨last, hquote, ?_⟩⟩
    rw [hlist, List.concat_eq_append, String.toList_ofList]

/-- **No cut goes through a character**, and what is left is what taking off quotes leaves. -/
theorem sliceQuotes?_eq (word : String) : sliceQuotes? word = some (unquote word) := by
  by_cases hquotes : ∃ text, Quotes word text
  · obtain ⟨text, htext⟩ := hquotes
    rw [sliceQuotes?_of_quotes htext, unquote_of_quotes htext]
  · rw [unquote_of_not_quotes hquotes]
    unfold sliceQuotes?
    split
    · next quote hhead =>
      split
      · next hends =>
        simp only [Bool.and_eq_true, decide_eq_true_eq, beq_iff_eq] at hends
        obtain ⟨⟨hquote, hsize⟩, hlast⟩ := hends
        exact absurd (quotes_of_ends hquote hhead hsize hlast) hquotes
      · rfl
    · rfl

/-- **Literals survive being shown and read.** A literal that is a finite number or any text is read
back from what a rule shows of it, and the zeros are equal. A word is a number exactly if it writes
a finite one. Any other word is the text between its quotes, if it stands between two quotes that
are alike, and the whole word if it does not. The quotes may be cut off by bytes: no cut goes
through a character. -/
theorem literals_survive_reading :
    (∀ literal : Literal, literal.isFinite → (ofWord literal.display).same literal) ∧
    (∀ (word : String) (x : Binary64),
      ofWord word = .number x ↔ Binary64.read? word = some x ∧ x.isFinite) ∧
    (∀ word text : String, ofWord word = .text text ↔
      (¬∃ x, Binary64.read? word = some x ∧ x.isFinite) ∧
      (Quotes word text ∨ (text = word ∧ ¬∃ inner, Quotes word inner))) ∧
    ∀ word : String, sliceQuotes? word = some (unquote word) :=
  ⟨fun _ h => same_ofWord_display h, fun _ _ => ofWord_eq_number_iff, fun _ _ => ofWord_eq_text_iff,
    sliceQuotes?_eq⟩

/-- A text with quotes of its own and characters of three bytes, a negative zero, and a word that
writes a number beyond the finite ones. -/
theorem literals_survive_reading_edges :
    ((Literal.text "\"日本\"").isFinite ∧ (ofWord "'\"日本\"'").same (.text "\"日本\"")) ∧
    ((Literal.number (.finite true .zero)).isFinite ∧
      (ofWord "0").same (.number (.finite true .zero))) ∧
    (Binary64.read? "1e400" = some (.infinite false) ∧ ofWord "1e400" = .text "1e400") ∧
    sliceQuotes? "'\"日本\"'" = some "\"日本\"" := by
  obtain ⟨hshown, -, htext, hslice⟩ := literals_survive_reading
  have hread : Binary64.read? "1e400" = some (.infinite false) := by decide +kernel
  refine ⟨⟨rfl, hshown (.text "\"日本\"") rfl⟩, ⟨rfl, ?_⟩, ⟨hread, ?_⟩, ?_⟩
  · have hzero := hshown (.number (.finite true .zero)) rfl
    rw [display, numberDisplay_zero] at hzero
    exact hzero
  · refine (htext "1e400" "1e400").2 ⟨?_, .inr ⟨rfl, ?_⟩⟩
    · rintro ⟨x, hx, hfinite⟩
      rw [hread] at hx
      cases hx
      cases hfinite
    · rintro ⟨inner, hinner⟩
      obtain ⟨quote, hquote, hlist⟩ := quotes_iff.1 hinner
      cases (List.cons.inj hlist).1
      cases hquote
  · rw [hslice]
    rfl

end Literal

end Rulebook
