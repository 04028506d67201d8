import Rulebook.Json.Basic

/-!
# Rounding stays in range

A quotient is rounded at the scale that keeps 53 bits of it, so what is left fits the mantissa and,
above the lowest scale, fills it. Rounding can then fail only for quotients beyond the largest
scale, far above the integers that a document can hold.
-/

namespace Rulebook

namespace Magnitude

theorem nearest_bounds (a b : Nat) : a / b ≤ nearest a b ∧ nearest a b ≤ a / b + 1 := by
  simp only [nearest]
  split <;> omega

theorem make?_isSome {mantissa scale : Nat} (hlt : mantissa < Nat.pow 2 53)
    (hscale : scale ≤ 2045) (hnormal : scale = 0 ∨ Nat.pow 2 52 ≤ mantissa) :
    (make? mantissa scale).isSome := by
  rw [make?, dif_pos ⟨hlt, hscale, hnormal⟩]
  rfl

/-- At the scale that keeps 53 bits, the quotient has at most 53 bits left. -/
theorem shift_lt (q : Nat) : q / Nat.pow 2 (q.log2 - 52) < Nat.pow 2 53 := by
  simp only [Nat.pow_eq]
  have hq : q < 2 ^ (q.log2 + 1) := Nat.lt_log2_self
  have hle : 2 ^ (q.log2 + 1) ≤ 2 ^ 53 * 2 ^ (q.log2 - 52) := by
    rw [← Nat.pow_add]
    exact Nat.pow_le_pow_right (by decide) (by omega)
  exact (Nat.div_lt_iff_lt_mul (Nat.two_pow_pos _)).2 (Nat.lt_of_lt_of_le hq hle)

/-- At a scale above the lowest one it has all of them. -/
theorem le_shift {q : Nat} (h : 0 < q.log2 - 52) :
    Nat.pow 2 52 ≤ q / Nat.pow 2 (q.log2 - 52) := by
  simp only [Nat.pow_eq]
  have hne : q ≠ 0 := by
    rintro rfl
    rw [Nat.log2_zero] at h
    omega
  have hlog : 52 + (q.log2 - 52) = q.log2 := by omega
  have hle : 2 ^ 52 * 2 ^ (q.log2 - 52) ≤ q := by
    rw [← Nat.pow_add, hlog]
    exact Nat.log2_self_le hne
  exact (Nat.le_div_iff_mul_le (Nat.two_pow_pos _)).2 hle

/-- Quotients below the largest scale have a nearest magnitude. -/
theorem round_isSome {a b : Nat} (h : (a / b).log2 ≤ 2096) : (round a b).isSome := by
  have hquot : a / (b * Nat.pow 2 ((a / b).log2 - 52)) = a / b / Nat.pow 2 ((a / b).log2 - 52) :=
    (Nat.div_div_eq_div_mul ..).symm
  have hnear := nearest_bounds a (b * Nat.pow 2 ((a / b).log2 - 52))
  have hlt := shift_lt (a / b)
  rw [hquot] at hnear
  rw [round]
  split
  -- rounded up to a power of two, the mantissa is halved at the next scale
  · exact make?_isSome (Nat.pow_lt_pow_right (by decide) (by decide)) (by omega)
      (.inr (Nat.le_refl _))
  · next hne =>
    refine make?_isSome ?_ (by omega) ?_
    · exact Nat.lt_of_le_of_ne (Nat.le_trans hnear.2 hlt) hne
    · rcases Nat.eq_zero_or_pos ((a / b).log2 - 52) with hzero | hpos
      · exact .inl hzero
      · exact .inr (Nat.le_trans (le_shift hpos) hnear.1)

end Magnitude

theorem log2_mul_two_pow_le (n k : Nat) : (n * Nat.pow 2 k).log2 ≤ n.log2 + k := by
  rw [Nat.pow_eq]
  rcases Nat.eq_zero_or_pos n with rfl | hpos
  · rw [Nat.zero_mul, Nat.log2_zero]
    exact Nat.zero_le _
  · have hne : n * 2 ^ k ≠ 0 := Nat.mul_ne_zero (by omega) (Nat.ne_of_gt (Nat.two_pow_pos k))
    refine Nat.le_of_lt_succ ((Nat.log2_lt hne).2 ?_)
    rw [Nat.succ_eq_add_one, Nat.add_right_comm, Nat.pow_add]
    exact Nat.mul_lt_mul_of_pos_right Nat.lt_log2_self (Nat.two_pow_pos k)

/-- The units in one are a power of two. The exponent is kept out of sight, since nothing should
compute the power. -/
theorem Magnitude.unitsInOne_eq : ∃ k ≤ 1074, Magnitude.unitsInOne = Nat.pow 2 k := by
  refine ⟨1074, Nat.le_refl _, ?_⟩
  delta Magnitude.unitsInOne
  generalize 1074 = k
  rfl

namespace Binary64

/-- The number nearest to an integer of up to 1023 bits is finite. -/
theorem isFinite_ofInt {n : Int} (h : n.natAbs.log2 ≤ 1022) : (ofInt n).isFinite := by
  have hlog : (n.natAbs * Magnitude.unitsInOne / 1).log2 ≤ 2096 := by
    obtain ⟨k, hk, hunits⟩ := Magnitude.unitsInOne_eq
    rw [Nat.div_one, hunits]
    exact Nat.le_trans (log2_mul_two_pow_le _ k) (by omega)
  obtain ⟨magnitude, hround⟩ := Option.isSome_iff_exists.1 (Magnitude.round_isSome hlog)
  rw [ofInt, ofRatio, hround]
  rfl

end Binary64

end Rulebook
