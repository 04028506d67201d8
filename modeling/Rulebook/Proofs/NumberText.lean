import Rulebook.Json.Printer
import Rulebook.Proofs.Numbers
import Rulebook.Proofs.Positional

/-!
# Numbers written in documents

A document writes a number that is not an integer with its shortest digits and always with a
fraction or an exponent, so that it is never taken for an integer. The digits have no zero in front
that a reader would not accept. Whatever follows a number in a document is no part of it
(`Source.NumberEnds`), and so its text is read alike wherever it stands: an integer as it was
(`Source.readsTo_int`), and any other number as the decimal that a reader takes in, which has the
value that is shown if the number is short (`Source.readsTo_real`).
-/

namespace Rulebook

namespace Decimal

/-- The digits of a number other than zero start with another digit than zero. -/
theorem toDigits_head {n : Nat} (h : n ≠ 0) : ∃ c rest, toDigits n = c :: rest ∧ c ≠ '0' := by
  induction n using Nat.strongRecOn with
  | _ n ih =>
    by_cases hlt : n < 10
    · refine ⟨n.digitChar, [], Nat.toDigits_of_lt_base hlt, ?_⟩
      have hall : ∀ k < 10, k ≠ 0 → k.digitChar ≠ '0' := by decide
      exact hall n hlt h
    · obtain ⟨c, rest, hdigits, hc⟩ := ih (n / 10) (by omega) (by omega)
      refine ⟨c, rest ++ [(n % 10).digitChar], ?_, hc⟩
      rw [toDigits, Nat.toDigits_of_base_le (by decide) (by omega), ← toDigits, hdigits,
        List.cons_append]

/-- Digits are whole if no zero stands in front of another digit. -/
def Whole (cs : List Char) : Prop :=
  cs ≠ [] ∧ (∀ c ∈ cs, isDigit c) ∧ ∀ c rest, cs ≠ '0' :: c :: rest

theorem whole_toDigits (n : Nat) : Whole (toDigits n) := by
  refine ⟨toDigits_ne_nil n, fun c hc => isDigit_of_mem_toDigits hc, fun c rest h => ?_⟩
  by_cases hzero : n = 0
  · rw [hzero] at h
    cases h
  · obtain ⟨first, others, hdigits, hne⟩ := toDigits_head hzero
    rw [hdigits] at h
    exact hne (List.cons.inj h).1

/-- Zeros may stand behind digits. -/
theorem whole_append_zeros {n : Nat} (h : n ≠ 0) (zeros : Nat) :
    Whole (toDigits n ++ List.replicate zeros '0') := by
  obtain ⟨first, others, hdigits, hne⟩ := toDigits_head h
  refine ⟨List.append_ne_nil_of_left_ne_nil (toDigits_ne_nil n) _, List.forall_mem_append.2
    ⟨fun c hc => isDigit_of_mem_toDigits hc, fun c hc => isDigit_of_mem_zeros hc⟩, ?_⟩
  intro c rest heq
  rw [hdigits] at heq
  exact hne (List.cons.inj heq).1

/-- In positional text no zero stands in front of another digit. -/
theorem positional_head {d : Decimal} (hdigits : d.digits ≠ 0) {c : Char} {rest : List Char}
    (hc : isDigit c) : d.positional ≠ '0' :: c :: rest := by
  obtain ⟨first, others, htext, hne⟩ := toDigits_head hdigits
  intro h
  unfold positional at h
  rw [htext] at h
  dsimp only at h
  split at h
  · exact hne (List.cons.inj h).1
  · split at h
    · next hplaces =>
      -- the first digit is before the point
      obtain ⟨k, hk⟩ : ∃ k, (first :: others).length - (-d.exponent).toNat = k + 1 :=
        ⟨(first :: others).length - (-d.exponent).toNat - 1, by omega⟩
      rw [hk, List.take_succ_cons] at h
      exact hne (List.cons.inj h).1
    · rw [List.cons_append, List.cons_append] at h
      rw [← (List.cons.inj (List.cons.inj h).2).1] at hc
      exact absurd hc (by decide)

/-- Positional text with a point: what stands before the point is whole. -/
theorem positional_fraction {d : Decimal} (hdigits : d.digits ≠ 0) (hexponent : d.exponent < 0) :
    ∃ whole fraction, d.positional = whole ++ '.' :: fraction ∧ Whole whole ∧ fraction ≠ [] ∧
      (∀ c ∈ fraction, isDigit c) ∧ ofDigits (whole ++ fraction) = d.digits ∧
      -(fraction.length : Int) = d.exponent := by
  rcases d.positional_cases with ⟨zeros, hzeros, -⟩ |
    ⟨whole, fraction, htext, hne, hwhole, hfraction, hvalue, hlength⟩
  · omega
  · refine ⟨whole, fraction, htext, ⟨hne, hwhole, ?_⟩, ?_, hfraction, hvalue, hlength⟩
    · rintro c rest rfl
      have hc : isDigit c := hwhole c (List.mem_cons_of_mem _ (List.mem_cons_self ..))
      exact positional_head hdigits hc htext
    · rintro rfl
      rw [List.length_nil] at hlength
      omega

end Decimal

namespace Decimal

/-! ## Digits that fit -/

theorem le_foldl_followedBy (n : Nat) (cs : List Char) : n ≤ cs.foldl followedBy n := by
  induction cs generalizing n with
  | nil => exact Nat.le_refl n
  | cons c rest ih =>
    refine Nat.le_trans ?_ (ih (followedBy n c))
    rw [followedBy]
    omega

/-- Digits before the point that fit are taken in. -/
theorem takeWhole_of_fits {n : Nat} {cs : List Char} (h : cs.foldl followedBy n ≤ maxDigits) :
    takeWhole n cs = ⟨cs.foldl followedBy n, 0⟩ := by
  induction cs generalizing n with
  | nil => rfl
  | cons c rest ih =>
    have hfits : followedBy n c ≤ maxDigits := Nat.le_trans (le_foldl_followedBy _ rest) h
    rw [takeWhole, if_pos hfits, ih h, List.foldl_cons]

/-- Digits behind the point that fit are taken in, each for one place. -/
theorem takeFraction_of_fits {d : Decimal} {cs : List Char}
    (h : cs.foldl followedBy d.digits ≤ maxDigits) :
    d.takeFraction cs = ⟨cs.foldl followedBy d.digits, d.exponent - cs.length⟩ := by
  induction cs generalizing d with
  | nil => simp [takeFraction]
  | cons c rest ih =>
    have hfits : followedBy d.digits c ≤ maxDigits := Nat.le_trans (le_foldl_followedBy _ rest) h
    have hlength : d.exponent - 1 - rest.length = d.exponent - (rest.length + 1 : Nat) := by omega
    rw [takeFraction, if_pos hfits, ih h, List.foldl_cons, List.length_cons, hlength]

/-- Digits on both sides of the point that fit are taken in as one number. -/
theorem takeFraction_takeWhole {whole fraction : List Char}
    (h : ofDigits (whole ++ fraction) ≤ maxDigits) :
    (takeWhole 0 whole).takeFraction fraction =
      ⟨ofDigits (whole ++ fraction), -(fraction.length : Int)⟩ := by
  have hsplit : ofDigits (whole ++ fraction) =
      fraction.foldl followedBy (whole.foldl followedBy 0) := List.foldl_append
  rw [hsplit] at h ⊢
  have hwhole := Nat.le_trans (le_foldl_followedBy _ fraction) h
  rw [takeWhole_of_fits hwhole, takeFraction_of_fits h, Int.zero_sub]

end Decimal

namespace Source

open Decimal Text

/-- A number ends where nothing follows that could belong to it. -/
def NumberEnds (rest : List Symbol) : Prop :=
  ∀ c tail, rest = .char c :: tail → isDigit c = false ∧ c ≠ '.' ∧ c ≠ 'e' ∧ c ≠ 'E'

theorem numberEnds_nil : NumberEnds [] := fun _ _ h => nomatch h

theorem isDigit_of_mem_zero : ∀ c ∈ ['0'], isDigit c := List.forall_mem_singleton.2 rfl

variable {negative : Bool} {whole fraction : List Char} {rest : List Symbol}

/-- Digits are cut off where they end. -/
theorem spanDigits_append {digits : List Char} (hdigits : ∀ c ∈ digits, isDigit c)
    (hrest : ∀ c tail, rest = .char c :: tail → isDigit c = false) :
    spanDigits (digits.map .char ++ rest) = (digits, rest) := by
  induction digits with
  | nil =>
    rw [List.map_nil, List.nil_append, spanDigits.eq_def]
    split
    · next c tail => rw [if_neg (by rw [hrest c tail rfl]; decide)]
    · rfl
  | cons c digits ih =>
    obtain ⟨hc, hdigits⟩ := List.forall_mem_cons.1 hdigits
    rw [List.map_cons, List.cons_append, spanDigits, if_pos hc, ih hdigits]

/-- Digits alone are read as an integer. -/
theorem readUnsigned_digits (hwhole : Whole whole) (hrest : NumberEnds rest) :
    readUnsigned negative (whole.map .char ++ rest) =
      (.number (integer negative (takeWhole 0 whole)), rest) := by
  obtain ⟨hne, hdigits, hzero⟩ := hwhole
  rw [readUnsigned, spanDigits_append hdigits fun c tail h => (hrest c tail h).1]
  dsimp only
  split
  · exact absurd rfl hne
  · next c tail => exact absurd rfl (hzero c tail)
  · split
    · next tail => exact absurd rfl (hrest '.' tail rfl).2.1
    · next e tail _ =>
      obtain ⟨-, -, hlower, hupper⟩ := hrest e tail rfl
      simp only [beq_iff_eq, hlower, hupper, Bool.or_eq_true, or_self, if_false]
    · rfl

/-- Digits, a point and digits are read up to the exponent. -/
theorem readUnsigned_point (hwhole : Whole whole) (hfraction : ∀ c ∈ fraction, isDigit c)
    (hne : fraction ≠ []) (hrest : ∀ c tail, rest = .char c :: tail → isDigit c = false) :
    readUnsigned negative (whole.map .char ++ .char '.' :: (fraction.map .char ++ rest)) =
      readExponent negative ((takeWhole 0 whole).takeFraction fraction) rest := by
  obtain ⟨hne', hdigits, hzero⟩ := hwhole
  have hpoint : ∀ c tail, Symbol.char '.' :: (fraction.map .char ++ rest) = .char c :: tail →
      isDigit c = false := by
    rintro c tail h
    cases h
    decide
  have hempty : fraction.isEmpty = false := List.isEmpty_eq_false_iff.2 hne
  rw [readUnsigned, spanDigits_append hdigits hpoint]
  dsimp only
  split
  · exact absurd rfl hne'
  · next c tail => exact absurd rfl (hzero c tail)
  · simp only [spanDigits_append hfraction hrest, hempty, Bool.false_eq_true, if_false]

/-- Digits are read up to the exponent. -/
theorem readUnsigned_exponent (hwhole : Whole whole) (rest : List Symbol) :
    readUnsigned negative (whole.map .char ++ .char 'e' :: rest) =
      readExponent negative (takeWhole 0 whole) (.char 'e' :: rest) := by
  obtain ⟨hne, hdigits, hzero⟩ := hwhole
  have hletter : ∀ c tail, Symbol.char 'e' :: rest = .char c :: tail → isDigit c = false := by
    rintro c tail h
    cases h
    decide
  rw [readUnsigned, spanDigits_append hdigits hletter]
  dsimp only
  split
  · exact absurd rfl hne
  · next c tail => exact absurd rfl (hzero c tail)
  · split
    · next heq => exact absurd (List.cons.inj heq).1 (by decide)
    · next heq =>
      cases heq
      rw [beq_self_eq_true, Bool.true_or, if_pos rfl]
    · next hchar => exact absurd rfl (hchar 'e' rest)

theorem readExponent_ends (d : Decimal) (hrest : NumberEnds rest) :
    readExponent negative d rest = (.number (real negative d), rest) := by
  unfold readExponent
  split
  · next e tail =>
    obtain ⟨-, -, hlower, hupper⟩ := hrest e tail rfl
    simp only [beq_iff_eq, hlower, hupper, Bool.or_eq_true, or_self, if_false]
  · rfl

/-- The exponent of a number, with its sign. -/
theorem readExponent_sign (negative : Bool) (d : Decimal) (minus : Bool) (n : Nat)
    (hrest : NumberEnds rest) :
    readExponent negative d
        (.char 'e' :: .char (if minus then '-' else '+') :: ((toDigits n).map .char ++ rest)) =
      (.number (real negative ⟨d.digits, d.exponent + (if minus then -(n : Int) else n)⟩),
        rest) := by
  have hends := fun c tail h => (hrest c tail h).1
  have hdigits : ∀ c ∈ toDigits n, isDigit c := fun c hc => isDigit_of_mem_toDigits hc
  have hempty : (toDigits n).isEmpty = false := List.isEmpty_eq_false_iff.2 (toDigits_ne_nil n)
  cases minus <;>
    simp only [readExponent, beq_self_eq_true, Bool.true_or, if_true, if_false, Bool.false_eq_true,
      spanDigits_append hdigits hends, hempty, ofDigits_toDigits]

/-! ## The texts of numbers -/

/-- Text is read as a decimal if that holds whatever follows it. -/
def ReadsAs (text : List Char) (d : Decimal) : Prop :=
  ∀ (negative : Bool) (rest : List Symbol), NumberEnds rest →
    readUnsigned negative (text.map .char ++ rest) = (.number (real negative d), rest)

/-- Positional text with a point. -/
theorem readsAs_point (hwhole : Whole whole) (hfraction : ∀ c ∈ fraction, isDigit c)
    (hne : fraction ≠ []) :
    ReadsAs (whole ++ '.' :: fraction) ((takeWhole 0 whole).takeFraction fraction) := by
  intro negative rest hrest
  have hends := fun c tail h => (hrest c tail h).1
  rw [List.map_append, List.map_cons, List.append_assoc, List.cons_append,
    readUnsigned_point hwhole hfraction hne hends, readExponent_ends _ hrest]

/-- Scientific notation: the places behind the point are taken back from the exponent. -/
theorem readsAs_scientific {d : Decimal} (hd : d.digits ≠ 0) :
    ∃ e, ReadsAs d.scientific e ∧ (d.digits ≤ maxDigits → e = d) := by
  obtain ⟨first, others, hdigits, hfirst⟩ := toDigits_head hd
  have hall : ∀ c ∈ first :: others, isDigit c := by
    rw [← hdigits]
    exact fun c hc => isDigit_of_mem_toDigits hc
  obtain ⟨hdigit, hothers⟩ := List.forall_mem_cons.1 hall
  have hwhole : Whole [first] :=
    ⟨List.cons_ne_nil _ _, List.forall_mem_singleton.2 hdigit, fun c rest h => nomatch h⟩
  have hvalue : ofDigits ([first] ++ others) = d.digits := by
    rw [List.singleton_append, ← hdigits, ofDigits_toDigits]
  have hsigned (e : Int) : (if decide (e < 0) then -(e.natAbs : Int) else e.natAbs) = e := by
    by_cases he : e < 0
    · rw [if_pos (decide_eq_true he)]
      omega
    · rw [if_neg (by simp [he])]
      omega
  generalize hexponent : d.exponent + ((first :: others).length : Nat) - 1 = exponent
  have hback : exponent = d.exponent + others.length := by
    rw [← hexponent, List.length_cons]
    omega
  generalize htaken : (takeWhole 0 [first]).takeFraction others = taken
  refine ⟨⟨taken.digits, taken.exponent + exponent⟩, ?_, fun hfits => ?_⟩
  · intro negative rest hrest
    have hsign := readExponent_sign negative taken (decide (exponent < 0)) exponent.natAbs hrest
    rw [hsigned] at hsign
    simp only [decide_eq_true_eq] at hsign
    rw [scientific, hdigits, hexponent, ← hsign, ← htaken]
    -- a single digit is written without a point
    cases others with
    | nil =>
      have htext := @readUnsigned_exponent negative _ hwhole
        (.char (if exponent < 0 then '-' else '+') ::
          ((toDigits exponent.natAbs).map .char ++ rest))
      simpa only [List.map_append, List.map_cons, List.map_nil, List.cons_append, List.nil_append,
        List.append_assoc, takeFraction] using htext
    | cons second others =>
      have htext := @readUnsigned_point negative _ _
        (.char 'e' :: .char (if exponent < 0 then '-' else '+') ::
          ((toDigits exponent.natAbs).map .char ++ rest))
        hwhole hothers (List.cons_ne_nil _ _) (by rintro c tail h; cases h; decide)
      simpa only [List.map_append, List.map_cons, List.map_nil, List.cons_append, List.nil_append,
        List.append_assoc] using htext
  · rw [← hvalue] at hfits
    rw [← htaken, takeFraction_takeWhole hfits, hvalue, hback]
    dsimp only
    have hplaces : -(others.length : Int) + (d.exponent + others.length) = d.exponent := by omega
    rw [hplaces]

/-- Positional text without places gets a point and a zero, which is one digit more. -/
theorem readsAs_ones {d : Decimal} (hd : d.digits ≠ 0) (hexponent : 0 ≤ d.exponent) :
    ∃ e, ReadsAs (d.positional ++ ".0".toList) e ∧
      (d.digits * Nat.pow 10 (d.exponent + 1).toNat ≤ maxDigits →
        e = ⟨d.digits * Nat.pow 10 (d.exponent + 1).toNat, -1⟩) := by
  obtain ⟨digits, exponent⟩ := d
  obtain ⟨zeros, rfl⟩ := Int.eq_ofNat_of_zero_le hexponent
  have htext : positional ⟨digits, zeros⟩ ++ ".0".toList =
      (toDigits digits ++ List.replicate zeros '0') ++ '.' :: ['0'] := by
    rw [positional, if_pos hexponent]
    rfl
  have hvalue : ofDigits (toDigits digits ++ List.replicate zeros '0' ++ ['0']) =
      digits * Nat.pow 10 (zeros + 1) := by
    rw [List.append_assoc, ← List.replicate_succ', ofDigits_append_zeros, ofDigits_toDigits]
  have hone : ((zeros : Int) + 1).toNat = zeros + 1 := by omega
  have hreads := readsAs_point (whole_append_zeros hd zeros) isDigit_of_mem_zero
    (List.cons_ne_nil _ _)
  refine ⟨_, htext ▸ hreads, fun hfits => ?_⟩
  dsimp only at hfits ⊢
  rw [hone, ← hvalue] at hfits ⊢
  exact takeFraction_takeWhole hfits

end Source

/-- The digits and the power of ten of a decimal are numbers. -/
def Decimal.Small (d : Decimal) : Prop :=
  d.digits < Nat.pow 2 53 ∧ -22 ≤ d.exponent ∧ d.exponent ≤ 22

/-- Digits other than zero leave no room for many zeros behind them. -/
theorem Decimal.small_of_lt {d : Decimal} (hdigits : d.digits ≠ 0)
    (h : d.digits * Nat.pow 10 (d.exponent + 1).toNat < Nat.pow 2 53) (hplaces : -22 ≤ d.exponent) :
    d.Small := by
  refine ⟨Nat.lt_of_le_of_lt (Nat.le_mul_of_pos_right _ (Nat.pow_pos (by decide))) h, hplaces, ?_⟩
  refine Int.not_lt.1 fun hlt => ?_
  have hten : Nat.pow 10 16 ≤ Nat.pow 10 (d.exponent + 1).toNat :=
    Nat.pow_le_pow_right (by decide) (by omega)
  have hlarge : Nat.pow 2 53 ≤ 1 * Nat.pow 10 16 := by decide
  have hproduct := Nat.mul_le_mul (Nat.pos_of_ne_zero hdigits) hten
  omega

/-- The digits that a magnitude shows in a document, with a zero behind its point if there are no
others, say less than `2 ^ 53`, and at most 22 of them are behind the point. -/
def Magnitude.Short (m : Magnitude) : Prop :=
  let d := Decimal.shortest .toEven m
  d.digits * Nat.pow 10 (d.exponent + 1).toNat < Nat.pow 2 53 ∧ -22 ≤ d.exponent

instance (m : Magnitude) : Decidable m.Short := inferInstanceAs (Decidable (_ ∧ _))

namespace Source

open Decimal Text

/-- The text of a magnitude is read as some decimal; if it is short, the decimal has the value that
is shown. -/
theorem readsAs_documentText (m : Magnitude) :
    ∃ d, ReadsAs m.documentText d ∧ (m.Short → d.Small ∧ d.SameValue (shortest .toEven m)) := by
  have hshortest := ofDecimal_shortest .toEven m
  have hfits {n : Nat} (h : n < Nat.pow 2 53) : n ≤ maxDigits :=
    Nat.le_trans (Nat.le_of_lt h) (by decide)
  unfold Magnitude.documentText
  dsimp only
  split
  · next hzero =>
    have hwhole : Whole ['0'] := whole_toDigits 0
    have htext : "0.0".toList = ['0'] ++ '.' :: ['0'] := rfl
    have htaken : (takeWhole 0 ['0']).takeFraction ['0'] = ⟨0, -1⟩ := rfl
    have hreads := readsAs_point hwhole isDigit_of_mem_zero (List.cons_ne_nil _ _)
    rw [htaken] at hreads
    refine ⟨_, htext ▸ hreads, fun _ => ?_⟩
    rw [shortest, if_pos hzero]
    exact ⟨⟨by decide, by decide, by decide⟩, rfl⟩
  · next hmantissa =>
    have hdigits : (shortest .toEven m).digits ≠ 0 := by
      intro hzero
      rw [Binary64.ofDecimal, if_pos hzero] at hshortest
      cases hshortest
      exact hmantissa rfl
    rw [Magnitude.Short]
    generalize shortest .toEven m = d at hdigits ⊢
    split
    · split
      · next hexponent =>
        obtain ⟨e, hreads, htaken⟩ := readsAs_ones hdigits hexponent
        refine ⟨e, hreads, ?_⟩
        rintro ⟨hlt, -⟩
        have hsame := sameValue_shift d.digits (d.exponent + 1).toNat (-1)
        have hplace : (-1 : Int) + (d.exponent + 1).toNat = d.exponent := by omega
        rw [hplace] at hsame
        have hone : (-22 : Int) ≤ -1 ∧ (-1 : Int) ≤ 22 := by decide
        rw [htaken (hfits hlt)]
        exact ⟨⟨hlt, hone⟩, hsame⟩
      · next hexponent =>
        obtain ⟨whole, fraction, htext, hwhole, hne, hfraction, hvalue, hlength⟩ :=
          positional_fraction hdigits (by omega)
        refine ⟨_, htext ▸ readsAs_point hwhole hfraction hne, ?_⟩
        rintro ⟨hlt, hplaces⟩
        have hsmall := small_of_lt hdigits hlt hplaces
        rw [takeFraction_takeWhole (hvalue ▸ hfits hsmall.1), hvalue, hlength]
        exact ⟨hsmall, rfl⟩
    · obtain ⟨e, hreads, htaken⟩ := readsAs_scientific hdigits
      refine ⟨e, hreads, ?_⟩
      rintro ⟨hlt, hplaces⟩
      have hsmall := small_of_lt hdigits hlt hplaces
      rw [htaken (hfits hsmall.1)]
      exact ⟨hsmall, rfl⟩

/-- An integer of 64 bits is read from its digits, behind a minus sign if it is negative. -/
theorem readUnsigned_integer {n : Int} (h : (Number.int n).InRange) {rest : List Symbol}
    (hrest : NumberEnds rest) :
    readUnsigned (n < 0) ((toDigits n.natAbs).map .char ++ rest) =
      (.number (some (.int n)), rest) := by
  obtain ⟨hlow, hhigh⟩ := h
  have hvalue : (toDigits n.natAbs).foldl followedBy 0 = n.natAbs := ofDigits_toDigits n.natAbs
  have hpow : Nat.pow 2 63 < Nat.pow 2 64 := by decide
  have hfits : n.natAbs ≤ maxDigits := Nat.le_sub_one_of_lt (by omega)
  have htaken : takeWhole 0 (toDigits n.natAbs) = ⟨n.natAbs, 0⟩ := by
    rw [takeWhole_of_fits (Nat.le_trans (Nat.le_of_eq hvalue) hfits), hvalue]
  have hinteger : integer (n < 0) ⟨n.natAbs, 0⟩ = some (.int n) := by
    rw [integer, if_neg (not_not_intro rfl)]
    by_cases hneg : n < 0
    · have hbounds : ¬(n.natAbs = 0 ∨ Nat.pow 2 63 < n.natAbs) := by omega
      have hself : -(n.natAbs : Int) = n := by omega
      rw [if_pos (decide_eq_true hneg), if_neg hbounds, hself]
    · have hself : (n.natAbs : Int) = n := by omega
      rw [if_neg (by simp [hneg]), hself]
  rw [readUnsigned_digits (whole_toDigits _) hrest, htaken, hinteger]

/-- The text of a number is a minus sign or none, and what is read as one value whatever follows. -/
def ReadsTo (text : List Char) (value : Option Number) : Prop :=
  ∃ negative cs, text = (if negative then ['-'] else []) ++ cs ∧ ∀ rest, NumberEnds rest →
    readUnsigned negative (cs.map .char ++ rest) = (.number value, rest)

theorem readsTo_int {n : Int} (h : (Number.int n).InRange) :
    ReadsTo (Json.numberText (.int n)).toList (some (.int n)) := by
  refine ⟨n < 0, toDigits n.natAbs, ?_, fun rest hrest => readUnsigned_integer h hrest⟩
  by_cases hneg : n < 0
  · simp [Json.numberText, hneg]
  · simp [Json.numberText, hneg]

theorem readsTo_real (negative : Bool) (m : Magnitude) :
    ∃ d, ReadsTo (Json.numberText (.real (.finite negative m))).toList (real negative d) ∧
      (m.Short → d.Small ∧ d.SameValue (shortest .toEven m)) := by
  obtain ⟨d, hreads, hshort⟩ := readsAs_documentText m
  refine ⟨d, ⟨negative, m.documentText, ?_, hreads negative⟩, hshort⟩
  cases negative <;> simp [Json.numberText]

/-- The text of a number of a document is always read to something. -/
theorem exists_readsTo {n : Number} (h : n.InRange) :
    ∃ value, ReadsTo (Json.numberText n).toList value := by
  cases n with
  | int n => exact ⟨_, readsTo_int h⟩
  | real x =>
    cases x with
    | finite negative m =>
      obtain ⟨d, hreads, -⟩ := readsTo_real negative m
      exact ⟨_, hreads⟩
    | infinite negative => cases h
    | nan => cases h

/-- What is read as a number starts with a digit. -/
theorem head_of_readUnsigned {negative : Bool} {ss : List Symbol} {value : Option Number}
    (h : (readUnsigned negative ss).1 = .number value) :
    ∃ c tail, ss = .char c :: tail ∧ isDigit c := by
  cases ss with
  | nil => cases h
  | cons s tail =>
    cases s with
    | stray => cases h
    | char c =>
      cases hc : isDigit c with
      | true => exact ⟨c, tail, rfl, hc⟩
      | false =>
        rw [readUnsigned, spanDigits, if_neg (by rw [hc]; decide)] at h
        cases h

end Source

end Rulebook
