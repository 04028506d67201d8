import Rulebook.Text.Symbols

/-!
# Decoding bytes

The bytes of a text are decoded to its characters (`Text.decode_toUTF8`).
-/

namespace Rulebook.Text

theorem symbols_append (s t : String) : symbols (s ++ t) = symbols s ++ symbols t := by
  simp only [symbols, String.toList_append, List.map_append]

/-- Symbols that are characters are a text. -/
theorem mapM_char? (cs : List Char) : (cs.map Symbol.char).mapM Symbol.char? = some cs := by
  induction cs with
  | nil => rfl
  | cons c cs ih =>
    rw [List.map_cons, List.mapM_cons, ih]
    rfl

theorem size_utf8Encode_singleton (c : Char) : [c].utf8Encode.size = c.utf8Size := by
  rw [List.utf8Encode_singleton, List.size_toByteArray, String.length_utf8EncodeChar]

/-- Behind other bytes, the first character of a text is decoded. -/
theorem utf8DecodeChar?_append_utf8Encode (front : ByteArray) (c : Char) (cs : List Char) :
    (front ++ (c :: cs).utf8Encode).utf8DecodeChar? front.size = some c := by
  rw [ByteArray.utf8DecodeChar?_eq_utf8DecodeChar?_extract,
    ByteArray.extract_append_eq_right rfl ByteArray.size_append]
  exact List.utf8DecodeChar?_utf8Encode_cons

/-- Behind what has been decoded, a text is decoded to its characters. -/
theorem decodeFrom_utf8Encode (cs : List Char) (front : ByteArray) (found : List Symbol) :
    decodeFrom (front ++ cs.utf8Encode) front.size found = found.reverse ++ cs.map .char := by
  -- a character that is decoded stands in front of those that are left
  induction cs generalizing front found with
  | nil =>
    rw [decodeFrom, if_neg (by simp), List.map_nil, List.append_nil]
  | cons c cs ih =>
    have hplace : front.size < (front ++ (c :: cs).utf8Encode).size := by
      rw [ByteArray.size_append, List.utf8Encode_cons, ByteArray.size_append,
        size_utf8Encode_singleton]
      have := c.utf8Size_pos
      omega
    have hrest := ih (front ++ [c].utf8Encode) (.char c :: found)
    rw [ByteArray.size_append, size_utf8Encode_singleton, ByteArray.append_assoc,
      ← List.utf8Encode_cons] at hrest
    rw [decodeFrom, if_pos hplace, utf8DecodeChar?_append_utf8Encode]
    dsimp only
    rw [hrest, List.reverse_cons, List.append_assoc, List.singleton_append, List.map_cons]

/-- **The bytes of a text are decoded to its characters.** -/
theorem decode_toUTF8 (text : String) : decode text.toUTF8 = symbols text := by
  have hdecode := decodeFrom_utf8Encode text.toList .empty []
  rwa [ByteArray.empty_append, String.utf8Encode_toList, List.reverse_nil, List.nil_append]
    at hdecode

end Rulebook.Text
