/-!
# Blanks, pieces and words

A rule is read word by word and a field path segment by segment. Either is a text that is cut at
every character of a class, where all pieces are kept, the empty ones too. Words are the pieces
between blanks that are not empty.
-/

namespace Rulebook.Text

/-- The blank characters: the 25 code points that Unicode calls white space. -/
def isBlank (c : Char) : Bool :=
  ('\t' ≤ c && c ≤ '\r') || c == ' ' || c == '\u0085' || c == '\u00a0' || c == '\u1680' ||
    ('\u2000' ≤ c && c ≤ '\u200a') || c == '\u2028' || c == '\u2029' || c == '\u202f' ||
    c == '\u205f' || c == '\u3000'

/-- The words of a text: its maximal runs of characters that are not blank. -/
def words (text : String) : List String :=
  ((text.toList.splitOnP isBlank).filter (fun piece => !piece.isEmpty)).map String.ofList

/-- Holds when a text has no character but blanks. -/
def allBlank (text : String) : Bool :=
  text.toList.all isBlank

/-- The text without the blanks at its start. -/
def dropBlank (cs : List Char) : List Char :=
  cs.dropWhile isBlank

/-- The segments of a path: what stands between its dots. -/
def segments (path : String) : List String :=
  (path.toList.splitOn '.').map String.ofList

/-! ## Cutting loses nothing -/

variable {p : Char → Bool} {c : Char}

/-- A character of the class ends an empty piece. -/
theorem splitOnP_cons_of_cut (hc : p c = true) (cs : List Char) :
    (c :: cs).splitOnP p = [] :: cs.splitOnP p := by
  rw [List.splitOnP_cons_eq_if_modifyHead, if_pos hc]

/-- Any other character joins the first piece. -/
theorem splitOnP_cons_of_keep (hc : p c = false) {cs first : List Char} {pieces : List (List Char)}
    (hcs : cs.splitOnP p = first :: pieces) : (c :: cs).splitOnP p = (c :: first) :: pieces := by
  rw [List.splitOnP_cons_eq_if_modifyHead, hc, if_neg Bool.false_ne_true, hcs, List.modifyHead_cons]

/-- The first piece of a text and the others. -/
theorem exists_splitOnP_eq_cons (p : Char → Bool) (cs : List Char) :
    ∃ first pieces, cs.splitOnP p = first :: pieces :=
  List.exists_cons_of_ne_nil (List.splitOnP_ne_nil p cs)

/-- No piece holds a character of the class at which the text was cut. -/
theorem not_mem_piece {cs piece : List Char} (h : piece ∈ cs.splitOnP p) :
    ∀ c ∈ piece, p c = false := by
  induction cs generalizing piece with
  | nil =>
    rw [List.splitOnP_nil] at h
    rw [List.mem_singleton.1 h]
    exact List.forall_mem_nil _
  | cons c cs ih =>
    cases hc : p c with
    | true =>
      rw [splitOnP_cons_of_cut hc] at h
      rcases List.mem_cons.1 h with rfl | h
      · exact List.forall_mem_nil _
      · exact ih h
    | false =>
      obtain ⟨first, pieces, hcs⟩ := exists_splitOnP_eq_cons p cs
      rw [splitOnP_cons_of_keep hc hcs] at h
      rw [hcs] at ih
      rcases List.mem_cons.1 h with rfl | h
      · exact List.forall_mem_cons.2 ⟨hc, ih (List.mem_cons_self ..)⟩
      · exact ih (List.mem_cons_of_mem _ h)

/-- No piece holds a character exactly if every character is one at which the text is cut. -/
theorem pieces_isEmpty_iff {cs : List Char} :
    (∀ piece ∈ cs.splitOnP p, piece.isEmpty) ↔ cs.all p := by
  induction cs with
  | nil => simp
  | cons c cs ih =>
    cases hc : p c with
    | true =>
      rw [splitOnP_cons_of_cut hc, List.all_cons, hc, Bool.true_and, ← ih, List.forall_mem_cons]
      exact and_iff_right rfl
    | false =>
      obtain ⟨first, pieces, hcs⟩ := exists_splitOnP_eq_cons p cs
      rw [splitOnP_cons_of_keep hc hcs, List.all_cons, hc, List.forall_mem_cons]
      simp

/-- A text has no words exactly if it is blank. -/
theorem words_eq_nil_iff {text : String} : words text = [] ↔ allBlank text := by
  rw [words, List.map_eq_nil_iff, List.filter_eq_nil_iff, allBlank, ← pieces_isEmpty_iff]
  simp

end Rulebook.Text
