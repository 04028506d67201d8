import Rulebook.Text.Blank

/-!
# The order of texts and the order of their bytes

Texts are ordered by the numbers of their characters, the first difference deciding, and the bytes
of a text in UTF-8 by the same rule stand in the same order (`Text.bytes_lt_iff`). A character is
written as a leading byte, which says how many bytes follow and holds the highest digit of its
number in base 64, and the other digits, one in each byte. Between characters with as many bytes
the first digit that differs decides (`leading_lt`), and more bytes mean a larger leading byte
(`leadingByte_lt`). So two characters that differ are told apart before either of them ends, and
what follows them does not matter (`utf8EncodeChar_append_lt`).
-/

namespace Rulebook.Text

/-- The numbers of the characters of a text. -/
def scalars (s : String) : List Nat := s.toList.map Char.toNat

/-- The bytes of a text in UTF-8. -/
def bytes (s : String) : List UInt8 := s.toByteArray.data.toList

/-! ## One character -/

/-- The lowest digits of a number in base 64, each in a byte of its own. -/
def trailing : Nat → Nat → List UInt8
  | 0, _ => []
  | count + 1, v => trailing count (v / 64) ++ [UInt8.ofNat (v % 64 + 128)]

/-- How many bytes follow the leading one for a number. -/
def following (v : Nat) : Nat :=
  if v ≤ 127 then 0 else if v ≤ 2047 then 1 else if v ≤ 65535 then 2 else 3

/-- What a leading byte holds to say how many bytes follow. -/
def mark : Nat → Nat
  | 0 => 0
  | 1 => 192
  | 2 => 224
  | _ => 240

/-- The leading byte for a number, as a number. -/
def leadingByte (v : Nat) : Nat := v / Nat.pow 64 (following v) + mark (following v)

theorem ofNat_lt_ofNat {m n : Nat} (h : m < n) (hn : n < 256) : UInt8.ofNat m < UInt8.ofNat n := by
  have hm : m < 256 := Nat.lt_trans h hn
  rw [UInt8.lt_iff_toNat_lt, UInt8.toNat_ofNat_of_lt' hm, UInt8.toNat_ofNat_of_lt' hn]
  exact h

theorem toNat_lt (c : Char) : c.toNat < 1114112 := by
  rcases c.valid with h | ⟨-, h⟩
  · exact Nat.lt_trans h (by decide)
  · exact h

theorem toNat_lt_toNat {c d : Char} (h : c < d) : c.toNat < d.toNat :=
  UInt32.lt_iff_toNat_lt.1 (Char.lt_def.1 h)

/-- A character is written as its leading byte and the bytes that follow. -/
theorem utf8EncodeChar_eq (c : Char) : String.utf8EncodeChar c =
    UInt8.ofNat (leadingByte c.toNat) :: trailing (following c.toNat) c.toNat := by
  have hlt := toNat_lt c
  rw [String.utf8EncodeChar, leadingByte, following]
  simp only [Char.toNat_val]
  split
  · simp [trailing, mark]
  · split
    · have hfirst : c.toNat / 64 % 32 = c.toNat / 64 := by omega
      simp [trailing, mark, hfirst]
    · split
      · have hfirst : c.toNat / 4096 % 16 = c.toNat / 4096 := by omega
        simp [trailing, mark, hfirst]
      · have hfirst : c.toNat / 262144 % 8 = c.toNat / 262144 := by omega
        simp [trailing, mark, hfirst, Nat.div_div_eq_div_mul]

/-- Between characters with as many bytes the first digit that differs decides. -/
theorem leading_lt {count lead v w : Nat} (h : v < w)
    (hlead : w / Nat.pow 64 count + lead < 256) (s t : List UInt8) :
    UInt8.ofNat (v / Nat.pow 64 count + lead) :: (trailing count v ++ s) <
      UInt8.ofNat (w / Nat.pow 64 count + lead) :: (trailing count w ++ t) := by
  induction count generalizing v w s t with
  | zero =>
    rw [List.cons_lt_cons_iff]
    refine .inl (ofNat_lt_ofNat ?_ hlead)
    simp only [Nat.pow_eq, Nat.pow_zero, Nat.div_one]
    omega
  | succ count ih =>
    have hpow : Nat.pow 64 (count + 1) = 64 * Nat.pow 64 count := by
      rw [Nat.pow_eq, Nat.pow_eq, Nat.pow_succ, Nat.mul_comm]
    rw [hpow, ← Nat.div_div_eq_div_mul] at hlead ⊢
    rw [← Nat.div_div_eq_div_mul, trailing, trailing, List.append_assoc, List.append_assoc]
    have hdigits : v / 64 < w / 64 ∨ v / 64 = w / 64 ∧ v % 64 < w % 64 := by omega
    rcases hdigits with hhigh | ⟨hhigh, hlow⟩
    · exact ih hhigh hlead _ _
    · -- the digits before the last one are the same, so the last bytes decide
      have hlast : UInt8.ofNat (v % 64 + 128) < UInt8.ofNat (w % 64 + 128) :=
        ofNat_lt_ofNat (by omega) (by omega)
      rw [hhigh, List.cons_lt_cons_iff]
      exact .inr ⟨rfl, List.append_left_lt (List.cons_lt_cons_iff.2 (.inl hlast))⟩

theorem leadingByte_lt_size {v : Nat} (h : v < 1114112) : leadingByte v < 256 := by
  unfold leadingByte following
  repeat' split
  all_goals
    simp only [mark, Nat.pow_eq, Nat.reducePow]
    omega

/-- A larger number has no fewer bytes. -/
theorem following_le {v w : Nat} (h : v < w) : following v ≤ following w := by
  unfold following
  repeat' split
  all_goals omega

/-- More bytes mean a larger leading byte. -/
theorem leadingByte_lt {v w : Nat} (h : following v < following w) :
    leadingByte v < leadingByte w := by
  revert h
  unfold leadingByte following
  repeat' split
  all_goals
    simp only [mark, Nat.pow_eq, Nat.reducePow]
    omega

/-- Two characters are told apart by their bytes, whatever follows them. -/
theorem utf8EncodeChar_append_lt {c d : Char} (h : c.toNat < d.toNat) (s t : List UInt8) :
    String.utf8EncodeChar c ++ s < String.utf8EncodeChar d ++ t := by
  have hsize := leadingByte_lt_size (toNat_lt d)
  rw [utf8EncodeChar_eq, utf8EncodeChar_eq, List.cons_append, List.cons_append]
  rcases Nat.lt_or_eq_of_le (following_le h) with hfewer | hsame
  · exact List.cons_lt_cons_iff.2 (.inl (ofNat_lt_ofNat (leadingByte_lt hfewer) hsize))
  · rw [leadingByte] at hsize
    rw [leadingByte, leadingByte, hsame]
    exact leading_lt h hsize s t

/-! ## Whole texts -/

theorem bytes_eq_flatMap (s : String) : bytes s = s.toList.flatMap String.utf8EncodeChar := by
  rw [bytes, ← String.utf8Encode_toList, List.utf8Encode, List.data_toByteArray]

/-- Bytes are ordered as the characters are that they write. -/
theorem flatMap_utf8EncodeChar_lt {s t : List Char} (h : s < t) :
    s.flatMap String.utf8EncodeChar < t.flatMap String.utf8EncodeChar := by
  induction s generalizing t with
  | nil =>
    cases t with
    | nil => cases h
    | cons d t =>
      rw [List.flatMap_cons, utf8EncodeChar_eq]
      exact List.nil_lt_cons ..
  | cons c s ih =>
    cases t with
    | nil => cases h
    | cons d t =>
      rw [List.flatMap_cons, List.flatMap_cons]
      rcases List.cons_lt_cons_iff.1 h with hlt | ⟨rfl, hlt⟩
      · exact utf8EncodeChar_append_lt (toNat_lt_toNat hlt) _ _
      · exact List.append_left_lt (ih hlt)

/-- What keeps the order of lists of characters, in which any two can be compared, reflects it. -/
theorem lt_iff_of_mono {α : Type} [LT α] [Std.Irrefl fun a b : α => a < b]
    [Std.Asymm fun a b : α => a < b] {f : List Char → List α} (h : ∀ s t, s < t → f s < f t)
    {s t : List Char} : f s < f t ↔ s < t := by
  refine ⟨fun hlt => ?_, h s t⟩
  rcases Std.lt_trichotomy s t with hst | rfl | hts
  · exact hst
  · exact absurd hlt (List.lt_irrefl _)
  · exact absurd hlt (List.lt_asymm (h t s hts))

/-- Texts are ordered as the numbers of their characters are. -/
theorem scalars_lt_iff {s t : String} : scalars s < scalars t ↔ s < t := by
  rw [String.lt_iff]
  exact lt_iff_of_mono fun s t hlt => List.map_lt (fun c d => toNat_lt_toNat) hlt

/-- **Texts are ordered as their bytes are.** -/
theorem bytes_lt_iff {s t : String} : bytes s < bytes t ↔ s < t := by
  rw [String.lt_iff, bytes_eq_flatMap, bytes_eq_flatMap]
  exact lt_iff_of_mono fun s t => flatMap_utf8EncodeChar_lt

end Rulebook.Text
