import Rulebook.Binary64.Decimal
import Rulebook.Proofs.Rounding

/-!
# Rounding goes by value

A quotient is rounded the same however it is written (`Magnitude.round_congr`), and a magnitude is
its own rounding (`Magnitude.round_units`). The two shortcuts of `Binary64.ofDecimal`, for decimals
far above the largest number and far below the smallest, give what rounding gives anyway. So a
decimal is rounded as the quotient that it is, and two decimals with one value are read as one
number (`Binary64.ofDecimal_congr`). Whole numbers below `2 ^ 53` need no rounding
(`Binary64.integer?_ofInt`).
-/

namespace Rulebook

namespace Magnitude

/-! ## Quotients -/

theorem nearest_mul (a b : Nat) {k : Nat} (hk : 0 < k) : nearest (a * k) (b * k) = nearest a b := by
  have htwice : 2 * (a % b * k) = 2 * (a % b) * k := (Nat.mul_assoc ..).symm
  have hlt : (b * k < 2 * (a % b) * k) = (b < 2 * (a % b)) :=
    propext (Nat.mul_lt_mul_right hk)
  have heq : (b * k == 2 * (a % b) * k) = (b == 2 * (a % b)) := by
    rw [Bool.eq_iff_iff, beq_iff_eq, beq_iff_eq]
    exact Nat.mul_left_inj (Nat.ne_of_gt hk)
  simp only [nearest, Nat.mul_div_mul_right _ _ hk, Nat.mul_mod_mul_right, htwice, hlt, heq]

theorem round_mul (a b : Nat) {k : Nat} (hk : 0 < k) : round (a * k) (b * k) = round a b := by
  simp only [round, Nat.mul_div_mul_right _ _ hk, Nat.mul_right_comm b k, nearest_mul _ _ hk]

/-- Equal quotients are rounded alike. -/
theorem round_congr {a b c d : Nat} (hb : 0 < b) (hd : 0 < d) (h : a * d = c * b) :
    round a b = round c d := by
  rw [← round_mul a b hd, h, Nat.mul_comm b d, round_mul c d hb]

/-! ## Exact values and values out of range -/

theorem nearest_of_dvd (a : Nat) {b : Nat} (hb : 0 < b) : nearest (a * b) b = a := by
  have hmod : a * b % b = 0 := Nat.mul_mod_left a b
  simp only [nearest, hmod, Nat.mul_div_cancel a hb]
  simp [Nat.ne_of_gt hb]

/-- The scale that rounding finds for a magnitude is its own. -/
theorem log2_units (m : Magnitude) : m.units.log2 - 52 = m.scale := by
  have hlt : m.mantissa < 2 ^ 53 := m.mantissa_lt
  rw [units, Nat.pow_eq]
  rcases Nat.eq_zero_or_pos m.scale with hscale | hscale
  · rw [hscale, Nat.pow_zero, Nat.mul_one]
    rcases Nat.eq_zero_or_pos m.mantissa with hzero | hpos
    · rw [hzero, Nat.log2_zero]
    · have := (Nat.log2_lt (Nat.ne_of_gt hpos)).2 hlt
      omega
  · -- above the lowest scale the mantissa has all its bits
    have hle : 2 ^ 52 ≤ m.mantissa := m.normal.resolve_left (Nat.ne_of_gt hscale)
    have hpos : 0 < 2 ^ m.scale := Nat.two_pow_pos m.scale
    have hne : m.mantissa * 2 ^ m.scale ≠ 0 := Nat.mul_ne_zero (by omega) (Nat.ne_of_gt hpos)
    have hlog : (m.mantissa * 2 ^ m.scale).log2 = 52 + m.scale := by
      refine (Nat.log2_eq_iff hne).2 ⟨?_, ?_⟩
      · rw [Nat.pow_add]
        exact Nat.mul_le_mul_right _ hle
      · rw [Nat.add_right_comm, Nat.pow_add]
        exact Nat.mul_lt_mul_of_pos_right hlt hpos
    omega

/-- A magnitude is its own rounding. -/
theorem round_units (m : Magnitude) : round m.units 1 = some m := by
  have hpos : 0 < Nat.pow 2 m.scale := Nat.two_pow_pos m.scale
  have hnearest : nearest m.units (1 * Nat.pow 2 m.scale) = m.mantissa := by
    rw [Nat.one_mul]
    exact nearest_of_dvd m.mantissa hpos
  simp only [round, Nat.div_one, log2_units, hnearest]
  rw [if_neg (Nat.ne_of_lt m.mantissa_lt)]
  exact make?_self m

/-- What is below half a unit is zero. -/
theorem round_of_lt_half {a b : Nat} (h : 2 * a < b) : round a b = some zero := by
  have hdiv : a / b = 0 := Nat.div_eq_of_lt (by omega)
  have hmod : a % b = a := Nat.mod_eq_of_lt (by omega)
  have hnearest : nearest a b = 0 := by
    have hne : (b == 2 * a) = false := beq_false_of_ne (by omega)
    simp only [nearest, hdiv, hmod, hne, Bool.false_and, Bool.or_false, decide_eq_true_eq]
    rw [if_neg (by omega)]
  simp only [round, hdiv, Nat.log2_zero, Nat.zero_sub, Nat.pow_eq, Nat.pow_zero, Nat.mul_one,
    hnearest]
  rw [if_neg (by decide)]
  rfl

/-- What needs a scale beyond the largest one is no magnitude. -/
theorem round_eq_none {a b : Nat} (h : 2098 ≤ (a / b).log2) : round a b = none := by
  simp only [round]
  split
  · exact dif_neg fun hfits => by omega
  · exact dif_neg fun hfits => by omega

/-- The units in one, as a power whose exponent is kept out of sight. -/
theorem unitsInOne_eq_pow : ∃ k, k = 1074 ∧ unitsInOne = Nat.pow 2 k := by
  refine ⟨1074, rfl, ?_⟩
  delta unitsInOne
  generalize 1074 = k
  rfl

theorem unitsInOne_pos : 0 < unitsInOne := by
  obtain ⟨k, -, hunits⟩ := unitsInOne_eq_pow
  rw [hunits]
  exact Nat.two_pow_pos k

/-- A whole number below `2 ^ 53` is a magnitude. -/
theorem exists_units {n : Nat} (h : n < Nat.pow 2 53) :
    ∃ m : Magnitude, m.units = n * unitsInOne := by
  obtain ⟨k, hk, hunits⟩ := unitsInOne_eq_pow
  rw [hunits]
  clear hunits
  rcases Nat.eq_zero_or_pos n with rfl | hpos
  · refine ⟨zero, ?_⟩
    rw [Nat.zero_mul]
    rfl
  · have hne : n ≠ 0 := Nat.ne_of_gt hpos
    have hlog : n.log2 < 53 := (Nat.log2_lt hne).2 h
    have hlow : 2 ^ n.log2 ≤ n := Nat.log2_self_le hne
    have hhigh : n < 2 ^ (n.log2 + 1) := Nat.lt_log2_self
    generalize n.log2 = top at hlog hlow hhigh
    -- the number is shifted up until it has all its bits
    have hlt : n * 2 ^ (52 - top) < 2 ^ 53 := by
      have hsplit : 2 ^ 53 = 2 ^ (top + 1) * 2 ^ (52 - top) := by
        rw [← Nat.pow_add, show top + 1 + (52 - top) = 53 by omega]
      rw [hsplit]
      exact Nat.mul_lt_mul_of_pos_right hhigh (Nat.two_pow_pos _)
    have hle : 2 ^ 52 ≤ n * 2 ^ (52 - top) := by
      have hsplit : 2 ^ 52 = 2 ^ top * 2 ^ (52 - top) := by
        rw [← Nat.pow_add, show top + (52 - top) = 52 by omega]
      rw [hsplit]
      exact Nat.mul_le_mul_right _ hlow
    have hscale : k - (52 - top) ≤ 2045 := by omega
    have hexponent : 52 - top + (k - (52 - top)) = k := by omega
    have hproduct : n * 2 ^ (52 - top) * 2 ^ (k - (52 - top)) = n * 2 ^ k := by
      rw [Nat.mul_assoc, ← Nat.pow_add, hexponent]
    exact ⟨⟨n * 2 ^ (52 - top), k - (52 - top), hlt, hscale, .inr hle⟩, hproduct⟩

end Magnitude

/-! ## Decimals -/

namespace Decimal

/-- The numerator of the quotient that a decimal is. -/
def numerator (d : Decimal) : Nat := d.digits * Nat.pow 10 d.exponent.toNat

/-- The denominator of the quotient that a decimal is. -/
def denominator (d : Decimal) : Nat := Nat.pow 10 (-d.exponent).toNat

theorem denominator_pos (d : Decimal) : 0 < d.denominator := Nat.pow_pos (by decide)

/-- Two decimals have the same value. -/
def SameValue (d e : Decimal) : Prop := d.numerator * e.denominator = e.numerator * d.denominator

/-- Zeros at the end of the digits are worth as much in the exponent. -/
theorem sameValue_shift (digits zeros : Nat) (exponent : Int) :
    SameValue ⟨digits * Nat.pow 10 zeros, exponent⟩ ⟨digits, exponent + zeros⟩ := by
  simp only [SameValue, numerator, denominator, Nat.pow_eq]
  rw [Nat.mul_assoc, Nat.mul_assoc, Nat.mul_assoc, ← Nat.pow_add, ← Nat.pow_add, ← Nat.pow_add]
  congr 2
  omega

end Decimal

namespace Binary64

theorem ofRatio_congr (negative : Bool) {a b c d : Nat} (hb : 0 < b) (hd : 0 < d)
    (h : a * d = c * b) : ofRatio negative a b = ofRatio negative c d := by
  have hunits : a * Magnitude.unitsInOne * d = c * Magnitude.unitsInOne * b := by
    rw [Nat.mul_right_comm, h, Nat.mul_right_comm]
  rw [ofRatio, ofRatio, Magnitude.round_congr hb hd hunits]

theorem ofRatio_of_round {negative : Bool} {a b : Nat} {m : Magnitude}
    (h : Magnitude.round (a * Magnitude.unitsInOne) b = some m) :
    ofRatio negative a b = .finite negative m := by
  rw [ofRatio, h]
  rfl

/-- The sign is not looked at when a quotient is rounded. -/
theorem ofRatio_eq_finite_iff {negative : Bool} {a b : Nat} {m : Magnitude} :
    ofRatio negative a b = .finite negative m ↔
      Magnitude.round (a * Magnitude.unitsInOne) b = some m := by
  refine ⟨?_, ofRatio_of_round⟩
  intro h
  rw [ofRatio] at h
  cases hround : Magnitude.round (a * Magnitude.unitsInOne) b with
  | none =>
    rw [hround] at h
    cases h
  | some found =>
    rw [hround] at h
    cases h
    rfl

/-- A whole number below `2 ^ 53` is kept as it is. -/
theorem integer?_ofInt {n : Nat} (h : n < Nat.pow 2 53) :
    (ofInt n).integer? = some (n : Int) := by
  obtain ⟨m, hm⟩ := Magnitude.exists_units h
  have hround : Magnitude.round (n * Magnitude.unitsInOne) 1 = some m := by
    rw [← hm]
    exact Magnitude.round_units m
  have hnumber : ofInt n = .finite false m := by
    have hsign : decide ((n : Int) < 0) = false := decide_eq_false (by omega)
    rw [ofInt, hsign, Int.natAbs_natCast]
    exact ofRatio_of_round hround
  have hne : (Magnitude.unitsInOne : Int) ≠ 0 :=
    Int.natCast_ne_zero.2 (Nat.ne_of_gt Magnitude.unitsInOne_pos)
  rw [hnumber, integer?, position, hm, if_pos (Nat.mul_mod_left n _), if_neg Bool.false_ne_true,
    Int.natCast_mul, Int.mul_ediv_cancel _ hne]

/-- Zero over anything is zero. -/
theorem ofRatio_zero (negative : Bool) {b : Nat} (hb : 0 < b) :
    ofRatio negative 0 b = .finite negative .zero := by
  refine ofRatio_of_round (Magnitude.round_of_lt_half ?_)
  rw [Nat.zero_mul]
  exact hb

/-- The shortcut for large decimals: rounding gives no magnitude for them. -/
theorem ofRatio_of_large (negative : Bool) {digits exponent : Nat} (hdigits : digits ≠ 0)
    (hexponent : 400 < exponent) :
    ofRatio negative (digits * Nat.pow 10 exponent) 1 = .infinite negative := by
  obtain ⟨k, hk, hunits⟩ := Magnitude.unitsInOne_eq_pow
  simp only [Nat.pow_eq] at hunits ⊢
  have hten : 2 ^ (3 * exponent) ≤ 10 ^ exponent := by
    rw [Nat.pow_mul]
    exact Nat.pow_le_pow_left (by decide) exponent
  have hle : 2 ^ (3 * exponent + k) ≤ digits * 10 ^ exponent * 2 ^ k := by
    rw [Nat.pow_add]
    refine Nat.mul_le_mul_right _ (Nat.le_trans hten ?_)
    exact Nat.le_mul_of_pos_left _ (Nat.pos_of_ne_zero hdigits)
  have hne : digits * 10 ^ exponent * 2 ^ k ≠ 0 :=
    Nat.ne_of_gt (Nat.lt_of_lt_of_le (Nat.two_pow_pos _) hle)
  have hlog : 2098 ≤ (digits * 10 ^ exponent * Magnitude.unitsInOne / 1).log2 := by
    rw [hunits, Nat.div_one]
    have := (Nat.le_log2 hne).2 hle
    omega
  rw [ofRatio, Magnitude.round_eq_none hlog]
  rfl

/-- The shortcut for small decimals: they round to zero. -/
theorem ofRatio_of_small (negative : Bool) {digits places : Nat}
    (h : digits.log2 + 1076 ≤ 3 * places) :
    ofRatio negative digits (Nat.pow 10 places) = .finite negative .zero := by
  obtain ⟨k, hk, hunits⟩ := Magnitude.unitsInOne_eq_pow
  simp only [Nat.pow_eq] at hunits ⊢
  have hten : 2 ^ (3 * places) ≤ 10 ^ places := by
    rw [Nat.pow_mul]
    exact Nat.pow_le_pow_left (by decide) places
  have hdigits : digits < 2 ^ (digits.log2 + 1) := Nat.lt_log2_self
  have hlt : 2 * (digits * 2 ^ k) < 2 ^ (digits.log2 + 1 + (k + 1)) := by
    rw [Nat.pow_add, Nat.pow_succ 2 k, Nat.mul_comm 2, Nat.mul_assoc]
    exact Nat.mul_lt_mul_of_pos_right hdigits (Nat.mul_pos (Nat.two_pow_pos k) (by decide))
  have hle : 2 ^ (digits.log2 + 1 + (k + 1)) ≤ 2 ^ (3 * places) :=
    Nat.pow_le_pow_right (by decide) (by omega)
  refine ofRatio_of_round (Magnitude.round_of_lt_half ?_)
  rw [hunits]
  exact Nat.lt_of_lt_of_le hlt (Nat.le_trans hle hten)

/-- A decimal is rounded as the quotient that it is. -/
theorem ofDecimal_eq_ofRatio (negative : Bool) (d : Decimal) :
    ofDecimal negative d = ofRatio negative d.numerator d.denominator := by
  obtain ⟨digits, exponent⟩ := d
  have hone : Nat.pow 10 0 = 1 := rfl
  simp only [ofDecimal, Decimal.numerator, Decimal.denominator]
  split
  · next hzero =>
    rw [hzero, Nat.zero_mul]
    exact (ofRatio_zero negative (Nat.pow_pos (by decide))).symm
  · next hdigits =>
    split
    · next hnonneg =>
      have hplaces : (-exponent).toNat = 0 := by omega
      rw [hplaces, hone]
      split
      · exact (ofRatio_of_large negative hdigits (by omega)).symm
      · rfl
    · next hneg =>
      have hshift : exponent.toNat = 0 := by omega
      rw [hshift, hone, Nat.mul_one]
      split
      · next hsmall => exact (ofRatio_of_small negative hsmall).symm
      · rfl

/-- Decimals with the same value are read as the same number. -/
theorem ofDecimal_congr (negative : Bool) {d e : Decimal} (h : d.SameValue e) :
    ofDecimal negative d = ofDecimal negative e := by
  rw [ofDecimal_eq_ofRatio, ofDecimal_eq_ofRatio]
  exact ofRatio_congr negative d.denominator_pos e.denominator_pos h

/-- A decimal that is some magnitude without a sign is that magnitude with one. -/
theorem ofDecimal_eq_finite_iff {negative : Bool} {d : Decimal} {m : Magnitude} :
    ofDecimal negative d = .finite negative m ↔ ofDecimal false d = .finite false m := by
  rw [ofDecimal_eq_ofRatio, ofDecimal_eq_ofRatio, ofRatio_eq_finite_iff, ofRatio_eq_finite_iff]

end Binary64

end Rulebook
