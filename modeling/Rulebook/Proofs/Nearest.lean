import Rulebook.Proofs.Positional

/-!
# Integers on the binary64 line

Rounding keeps the order and goes no further than half of the last bit. Both are shown for whole
numbers of units first (`Magnitude.rounded`), without the limits of the format: at one scale they
are facts about `nearest`, and where the scale changes a power of two, which is its own rounding,
stands between. With a sign in front, `Binary64.place` is then the position at which an integer is
found. What the integers below `2 ^ 53` have, that no other integer is found where they are, follows
from the order, since their neighbours are kept as they are too (`Binary64.place_ne`).
-/

namespace Rulebook

namespace Magnitude

/-! ## Rounding to a whole number -/

/-- What is no less is rounded to no less. -/
theorem nearest_mono {a c : Nat} (b : Nat) (h : a ≤ c) : nearest a b ≤ nearest c b := by
  obtain hlt | heq := Nat.lt_or_eq_of_le (Nat.div_le_div_right (c := b) h)
  · calc nearest a b
      _ ≤ a / b + 1 := (nearest_bounds a b).2
      _ ≤ c / b := hlt
      _ ≤ nearest c b := (nearest_bounds c b).1
  · -- of two numbers with one quotient the greater has the greater rest
    have hmod : a % b ≤ c % b := by
      have ha := Nat.div_add_mod a b
      have hc := Nat.div_add_mod c b
      rw [heq] at ha
      omega
    simp only [nearest, heq, Bool.or_eq_true, Bool.and_eq_true, decide_eq_true_eq, beq_iff_eq]
    split <;> split <;> omega

/-- Rounding goes no further than half a step. -/
theorem nearest_near (a : Nat) {b : Nat} (hb : 0 < b) :
    2 * (nearest a b * b) ≤ 2 * a + b ∧ 2 * a ≤ 2 * (nearest a b * b) + b := by
  have ha := Nat.div_add_mod a b
  have hmod := Nat.mod_lt a hb
  rw [Nat.mul_comm] at ha
  simp only [nearest, Bool.or_eq_true, Bool.and_eq_true, decide_eq_true_eq, beq_iff_eq]
  split
  · rw [Nat.add_mul, Nat.one_mul]
    omega
  · omega

/-! ## Rounding to 53 bits -/

/-- The units to which so many units are rounded, had the format no limits. -/
def rounded (a : Nat) : Nat := nearest a (Nat.pow 2 (a.log2 - 52)) * Nat.pow 2 (a.log2 - 52)

/-- A rounded magnitude has the rounded units, also if the last bit carries up to a new first
one. -/
theorem units_of_round {a : Nat} {m : Magnitude} (h : round a 1 = some m) :
    m.units = rounded a := by
  simp only [round, Nat.div_one, Nat.one_mul] at h
  rw [rounded]
  split at h
  · next hcarry =>
    obtain ⟨hmantissa, hscale⟩ := eq_of_make? h
    have hpow : 2 ^ 52 * 2 ^ (a.log2 - 52 + 1) = 2 ^ 53 * 2 ^ (a.log2 - 52) := by
      rw [← Nat.pow_add, ← Nat.pow_add, Nat.add_left_comm, Nat.add_comm]
    rw [units, hmantissa, hscale, hcarry]
    exact hpow
  · obtain ⟨hmantissa, hscale⟩ := eq_of_make? h
    rw [units, hmantissa, hscale]

theorem rounded_units (m : Magnitude) : rounded m.units = m.units :=
  (units_of_round (round_units m)).symm

/-- At a scale no higher than itself a power of two is kept. -/
theorem nearest_two_pow {s k : Nat} (h : s ≤ k) :
    nearest (Nat.pow 2 k) (Nat.pow 2 s) * Nat.pow 2 s = Nat.pow 2 k := by
  simp only [Nat.pow_eq]
  have hpow : 2 ^ k = 2 ^ (k - s) * 2 ^ s := by rw [← Nat.pow_add, Nat.sub_add_cancel h]
  rw [hpow, nearest_of_dvd _ (Nat.two_pow_pos s)]

/-- No number is rounded above the next power of two. -/
theorem rounded_le_two_pow (a : Nat) : rounded a ≤ Nat.pow 2 (a.log2 + 1) := by
  have ha : a ≤ Nat.pow 2 (a.log2 + 1) := Nat.le_of_lt Nat.lt_log2_self
  have hscale : a.log2 - 52 ≤ a.log2 + 1 := by omega
  rw [← nearest_two_pow hscale]
  exact Nat.mul_le_mul_right _ (nearest_mono _ ha)

/-- No number is rounded below the power of two that it has reached. -/
theorem two_pow_le_rounded {a : Nat} (h : a ≠ 0) : Nat.pow 2 a.log2 ≤ rounded a := by
  have ha : Nat.pow 2 a.log2 ≤ a := Nat.log2_self_le h
  rw [← nearest_two_pow (Nat.sub_le a.log2 52)]
  exact Nat.mul_le_mul_right _ (nearest_mono _ ha)

theorem rounded_zero : rounded 0 = 0 := by decide

theorem log2_le_log2 {a c : Nat} (h : a ≤ c) : a.log2 ≤ c.log2 := by
  obtain rfl | hpos := Nat.eq_zero_or_pos a
  · rw [Nat.log2_zero]
    exact Nat.zero_le _
  · have hreached : 2 ^ a.log2 ≤ a := Nat.log2_self_le (Nat.ne_of_gt hpos)
    exact (Nat.le_log2 (by omega)).2 (Nat.le_trans hreached h)

/-- Rounding keeps the order. -/
theorem rounded_mono {a c : Nat} (h : a ≤ c) : rounded a ≤ rounded c := by
  obtain heq | hne := Nat.eq_or_lt_of_le (log2_le_log2 h)
  · rw [rounded, rounded, heq]
    exact Nat.mul_le_mul_right _ (nearest_mono _ h)
  · have hc : c ≠ 0 := by
      rintro rfl
      rw [Nat.log2_zero] at hne
      exact absurd hne (Nat.not_lt_zero _)
    calc rounded a
      _ ≤ Nat.pow 2 (a.log2 + 1) := rounded_le_two_pow a
      _ ≤ Nat.pow 2 c.log2 := Nat.pow_le_pow_right (by decide) hne
      _ ≤ rounded c := two_pow_le_rounded hc

/-- Rounding to 53 bits moves a number by no more than a part in `2 ^ 53`. -/
theorem rounded_near (a : Nat) :
    Nat.pow 2 53 * rounded a ≤ Nat.pow 2 53 * a + a ∧
      Nat.pow 2 53 * a ≤ Nat.pow 2 53 * rounded a + a := by
  obtain hlow | hhigh := Nat.eq_zero_or_pos (a.log2 - 52)
  · have hkept : rounded a = a := by
      have hone := nearest_of_dvd a Nat.one_pos
      rw [Nat.mul_one] at hone
      rw [rounded, hlow]
      exact (Nat.mul_one _).trans hone
    rw [hkept]
    exact ⟨Nat.le_add_right .., Nat.le_add_right ..⟩
  · -- half a step is worth a part in `2 ^ 53` of the lowest number with this scale
    have hbits := le_shift hhigh
    have hnear := nearest_near a (Nat.two_pow_pos (a.log2 - 52))
    have hstep := Nat.le_trans (Nat.mul_le_mul_right (Nat.pow 2 (a.log2 - 52)) hbits)
      (Nat.div_mul_le_self a _)
    rw [rounded]
    simp only [Nat.pow_eq] at hnear hstep ⊢
    generalize nearest a (2 ^ (a.log2 - 52)) * 2 ^ (a.log2 - 52) = found at hnear
    generalize 2 ^ (a.log2 - 52) = step at hnear hstep
    omega

/-- Also `2 ^ 53`, the first integer that is not below it, is a magnitude. -/
theorem exists_units_of_le {n : Nat} (h : n ≤ Nat.pow 2 53) :
    ∃ m : Magnitude, m.units = n * unitsInOne := by
  obtain rfl | hlt := Nat.eq_or_lt_of_le h
  · obtain ⟨k, hk, hunits⟩ := unitsInOne_eq_pow
    refine ⟨⟨Nat.pow 2 52, k + 1, by decide, by omega, .inr (Nat.le_refl _)⟩, ?_⟩
    rw [units, hunits]
    simp only [Nat.pow_eq]
    rw [← Nat.pow_add, ← Nat.pow_add, Nat.add_left_comm, Nat.add_comm]
  · exact exists_units hlt

end Magnitude

namespace Binary64

/-! ## Where integers are found -/

/-- The position of the number nearest to an integer, in units. -/
def place (n : Int) : Int :=
  if n < 0 then -(Magnitude.rounded (n.natAbs * Magnitude.unitsInOne) : Int)
  else Magnitude.rounded (n.natAbs * Magnitude.unitsInOne)

theorem place_natCast (n : Nat) :
    place n = Magnitude.rounded (n * Magnitude.unitsInOne) := by
  rw [place, if_neg (by omega), Int.natAbs_natCast]

theorem place_neg_natCast (n : Nat) :
    place (-n) = -(Magnitude.rounded (n * Magnitude.unitsInOne) : Int) := by
  obtain rfl | hpos := Nat.eq_zero_or_pos n
  · rw [Nat.zero_mul, Magnitude.rounded_zero, place, if_neg (by decide), Int.natAbs_neg,
      Int.natAbs_natCast, Nat.zero_mul, Magnitude.rounded_zero]
    rfl
  · rw [place, if_pos (by omega), Int.natAbs_neg, Int.natAbs_natCast]

/-- The nearest numbers stand in the order of the integers. -/
theorem place_mono {n k : Int} (h : n ≤ k) : place n ≤ place k := by
  obtain ⟨a, rfl | rfl⟩ := n.eq_nat_or_neg
  · obtain ⟨c, rfl⟩ := Int.eq_ofNat_of_zero_le (Int.le_trans (Int.natCast_nonneg a) h)
    rw [place_natCast, place_natCast]
    have hle : a ≤ c := Int.ofNat_le.1 h
    exact Int.ofNat_le.2 (Magnitude.rounded_mono (Nat.mul_le_mul_right _ hle))
  · obtain ⟨c, rfl | rfl⟩ := k.eq_nat_or_neg
    · rw [place_neg_natCast, place_natCast]
      omega
    · rw [place_neg_natCast, place_neg_natCast]
      have hle : c ≤ a := by omega
      exact Int.neg_le_neg
        (Int.ofNat_le.2 (Magnitude.rounded_mono (Nat.mul_le_mul_right _ hle)))

/-- An integer that is a magnitude with a sign is found where it is. -/
theorem place_of_units {n : Int} {m : Magnitude}
    (h : m.units = n.natAbs * Magnitude.unitsInOne) :
    place n = n * (Magnitude.unitsInOne : Int) := by
  have hkept := Magnitude.rounded_units m
  obtain ⟨a, rfl | rfl⟩ := n.eq_nat_or_neg
  · rw [Int.natAbs_natCast] at h
    rw [place_natCast, ← h, hkept, h, Int.natCast_mul]
  · rw [Int.natAbs_neg, Int.natAbs_natCast] at h
    rw [place_neg_natCast, ← h, hkept, h, Int.natCast_mul, Int.neg_mul]

theorem place_of_le {n : Int} (h : n.natAbs ≤ Nat.pow 2 53) :
    place n = n * (Magnitude.unitsInOne : Int) := by
  obtain ⟨m, hm⟩ := Magnitude.exists_units_of_le h
  exact place_of_units hm

/-- No other integer is found where one below `2 ^ 53` is: the integers beside it are found where
they are, and the others beyond those. -/
theorem place_ne {n k : Int} (hk : k.natAbs < Nat.pow 2 53) (h : n ≠ k) : place n ≠ place k := by
  have hunits : (0 : Int) < Magnitude.unitsInOne := Int.natCast_pos.2 Magnitude.unitsInOne_pos
  rw [place_of_le (Nat.le_of_lt hk)]
  obtain hlt | hgt := Int.lt_or_gt_of_ne h
  · have hbeside := place_of_le (n := k - 1) (by omega)
    have hplace := place_mono (n := n) (k := k - 1) (by omega)
    rw [hbeside, Int.sub_mul, Int.one_mul] at hplace
    omega
  · have hbeside := place_of_le (n := k + 1) (by omega)
    have hplace := place_mono (n := k + 1) (k := n) (by omega)
    rw [hbeside, Int.add_mul, Int.one_mul] at hplace
    omega

/-- An integer is found no further away than a part in `2 ^ 53` of it. -/
theorem place_near (n : Int) :
    (Nat.pow 2 53 : Int) * place n ≤
        Nat.pow 2 53 * (n * Magnitude.unitsInOne) + n.natAbs * Magnitude.unitsInOne ∧
      (Nat.pow 2 53 : Int) * (n * Magnitude.unitsInOne) ≤
        Nat.pow 2 53 * place n + n.natAbs * Magnitude.unitsInOne := by
  obtain ⟨a, rfl | rfl⟩ := n.eq_nat_or_neg
  · have hnear := Magnitude.rounded_near (a * Magnitude.unitsInOne)
    rw [place_natCast, Int.natAbs_natCast, ← Int.natCast_mul a]
    generalize a * Magnitude.unitsInOne = units at hnear ⊢
    simp only [Nat.pow_eq] at hnear ⊢
    omega
  · have hnear := Magnitude.rounded_near (a * Magnitude.unitsInOne)
    rw [place_neg_natCast, Int.natAbs_neg, Int.natAbs_natCast, Int.neg_mul,
      ← Int.natCast_mul a]
    generalize a * Magnitude.unitsInOne = units at hnear ⊢
    simp only [Nat.pow_eq] at hnear ⊢
    omega

/-- Integers that are found at one position are no further apart than a part in `2 ^ 53` of both
together. -/
theorem near_of_place_eq {n k : Int} (h : place n = place k) :
    Nat.pow 2 53 * (n - k).natAbs ≤ n.natAbs + k.natAbs := by
  have hunits : (0 : Int) < Magnitude.unitsInOne := Int.natCast_pos.2 Magnitude.unitsInOne_pos
  have hn := place_near n
  have hk := place_near k
  rw [h] at hn
  simp only [Nat.pow_eq] at hn hk ⊢
  have hbelow : (2 ^ 53 * (n - k)) * (Magnitude.unitsInOne : Int) ≤
      (n.natAbs + k.natAbs) * Magnitude.unitsInOne := by
    rw [Int.mul_assoc, Int.sub_mul, Int.add_mul]
    omega
  have habove : (2 ^ 53 * (k - n)) * (Magnitude.unitsInOne : Int) ≤
      (n.natAbs + k.natAbs) * Magnitude.unitsInOne := by
    rw [Int.mul_assoc, Int.sub_mul, Int.add_mul]
    omega
  have hleft := Int.le_of_mul_le_mul_right hbelow hunits
  have hright := Int.le_of_mul_le_mul_right habove hunits
  omega

/-! ## Numbers that are read from integers -/

/-- A whole number with a sign in front, zero included, is the finite number at the place of the
integer. -/
theorem exists_ofRatio (negative : Bool) {d : Nat} (h : d.log2 ≤ 1022) :
    ∃ m, ofRatio negative d 1 = .finite negative m ∧
      position negative m = place (if negative then -d else d) := by
  have hlog : (d * Magnitude.unitsInOne / 1).log2 ≤ 2096 := by
    obtain ⟨k, hk, hunits⟩ := Magnitude.unitsInOne_eq
    rw [Nat.div_one, hunits]
    exact Nat.le_trans (log2_mul_two_pow_le _ k) (by omega)
  obtain ⟨m, hm⟩ := Option.isSome_iff_exists.1 (Magnitude.round_isSome hlog)
  refine ⟨m, ofRatio_of_round hm, ?_⟩
  rw [position, Magnitude.units_of_round hm]
  cases negative with
  | false => rw [if_neg Bool.false_ne_true, if_neg Bool.false_ne_true, place_natCast]
  | true => rw [if_pos rfl, if_pos rfl, place_neg_natCast]

/-- The number nearest to an integer is the finite number at the place of the integer. -/
theorem exists_ofInt {n : Int} (h : n.natAbs.log2 ≤ 1022) :
    ∃ m, ofInt n = .finite (n < 0) m ∧ position (n < 0) m = place n := by
  obtain ⟨m, hm, hposition⟩ := exists_ofRatio (n < 0) h
  refine ⟨m, hm, hposition.trans (congrArg place ?_)⟩
  simp only [decide_eq_true_eq]
  split <;> omega

end Binary64

end Rulebook
