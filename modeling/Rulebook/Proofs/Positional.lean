import Rulebook.Proofs.Exactness
import Rulebook.Rule.Literal
import Rulebook.Text.Blank

/-!
# What is displayed is read back

The search for the shortest decimal of a magnitude tests what it finds by reading it, and the exact
expansion behind the search reads back as well; dropping zeros keeps the value
(`Decimal.ofDecimal_shortest`). Positional text is read as a decimal of the value that it shows
(`Decimal.readDecimal?_positional`). Together, a finite number is read back from its text, and so
is a literal from what a rule shows of it; only the sign of a zero may be lost
(`Literal.same_ofWord_display`).
-/

namespace Rulebook

namespace Decimal

/-! ## Digits -/

theorem isDigit_of_mem_toDigits {n : Nat} {c : Char} (h : c ∈ toDigits n) : isDigit c := by
  have hdigit : c.isDigit := Nat.isDigit_of_mem_toDigits (by decide) (by decide) h
  simp only [Char.isDigit, ge_iff_le, Bool.and_eq_true, decide_eq_true_eq] at hdigit
  simp only [isDigit, Bool.and_eq_true, decide_eq_true_eq]
  exact hdigit

theorem toDigits_ne_nil (n : Nat) : toDigits n ≠ [] := Nat.toDigits_ne_nil

theorem isBlank_of_isDigit {c : Char} (h : isDigit c) : Text.isBlank c = false := by
  have hne : ∀ d, isDigit d = false → (c == d) = false := by
    intro d hd
    refine beq_false_of_ne ?_
    rintro rfl
    exact Bool.false_ne_true (hd.symm.trans h)
  simp only [isDigit, Bool.and_eq_true, decide_eq_true_eq] at h
  -- the digits stand between the two ranges of blanks
  have hlow : decide (c ≤ '\r') = false :=
    decide_eq_false fun hle => absurd (Char.le_trans h.1 hle) (by decide)
  have hhigh : decide ('\u2000' ≤ c) = false :=
    decide_eq_false fun hle => absurd (Char.le_trans hle h.2) (by decide)
  simp (disch := decide) only [Text.isBlank, hlow, hhigh, hne, Bool.and_false, Bool.false_and,
    Bool.or_false]

/-- The digits of a number write it. -/
theorem ofDigits_toDigits (n : Nat) : ofDigits (toDigits n) = n := Nat.ofDigitChars_ten_toDigits

/-- Zeros behind digits. -/
theorem ofDigits_append_zeros (cs : List Char) (k : Nat) :
    ofDigits (cs ++ List.replicate k '0') = ofDigits cs * Nat.pow 10 k := by
  have happend : Nat.ofDigitChars 10 (cs ++ List.replicate k '0') 0 =
      10 ^ k * Nat.ofDigitChars 10 cs 0 := by
    rw [Nat.ofDigitChars_append, Nat.ofDigitChars_replicate_zero]
  rw [Nat.mul_comm]
  exact happend

/-- Zeros in front of digits. -/
theorem ofDigits_zeros_append (k : Nat) (cs : List Char) :
    ofDigits (List.replicate k '0' ++ cs) = ofDigits cs := by
  have happend : Nat.ofDigitChars 10 (List.replicate k '0' ++ cs) 0 =
      Nat.ofDigitChars 10 cs (10 ^ k * 0) := by
    rw [Nat.ofDigitChars_append, Nat.ofDigitChars_replicate_zero]
  exact happend

/-! ## Dropping zeros -/

/-- The characters that a run of zeros at the end consists of. -/
theorem eq_append_zeros (cs : List Char) :
    ∃ front, cs = front ++ List.replicate (cs.reverse.takeWhile (· == '0')).length '0' := by
  have hzeros : cs.reverse.takeWhile (· == '0') =
      List.replicate (cs.reverse.takeWhile (· == '0')).length '0' := by
    refine List.eq_replicate_iff.2 ⟨rfl, fun c hc => ?_⟩
    have hall := List.all_takeWhile (l := cs.reverse) (p := (· == '0'))
    exact eq_of_beq (List.all_eq_true.1 hall c hc)
  have hsplit := List.takeWhile_append_dropWhile (p := (· == '0')) (l := cs.reverse)
  refine ⟨(cs.reverse.dropWhile (· == '0')).reverse, ?_⟩
  have hreverse := congrArg List.reverse hsplit
  rw [hzeros, List.reverse_append, List.reverse_replicate, List.reverse_reverse] at hreverse
  exact hreverse.symm

theorem sameValue_trim (d : Decimal) : SameValue d.trim d := by
  obtain ⟨digits, exponent⟩ := d
  unfold trim
  dsimp only
  split
  · next hzero =>
    rw [hzero, SameValue, numerator, numerator, Nat.zero_mul, Nat.zero_mul, Nat.zero_mul,
      Nat.zero_mul]
  · obtain ⟨front, hfront⟩ := eq_append_zeros (toDigits digits)
    generalize ((toDigits digits).reverse.takeWhile (· == '0')).length = zeros at hfront ⊢
    have hdigits : digits = ofDigits front * Nat.pow 10 zeros := by
      rw [← ofDigits_append_zeros, ← hfront, ofDigits_toDigits]
    have hdiv : digits / Nat.pow 10 zeros = ofDigits front := by
      rw [hdigits]
      exact Nat.mul_div_cancel _ (Nat.pow_pos (by decide))
    rw [hdiv, hdigits]
    exact (sameValue_shift (ofDigits front) zeros exponent).symm

/-! ## The shortest decimal -/

/-- What is found on a grid has been tested. -/
theorem readsAs_of_onGrid? {tie : Tie} {m : Magnitude} {exponent : Int} {d : Decimal}
    (h : onGrid? tie m exponent = some d) : readsAs m d := by
  unfold onGrid? at h
  generalize (if 0 ≤ exponent then
      (m.units, Magnitude.unitsInOne * Nat.pow 10 exponent.toNat)
    else (m.units * Nat.pow 10 (-exponent).toNat, Magnitude.unitsInOne)) = quotient at h
  obtain ⟨a, b⟩ := quotient
  dsimp only at h
  split at h
  · next hbelow habove =>
    -- with both neighbours to choose from, either choice has been tested
    split at h
    · cases h
      exact hbelow
    · split at h
      · cases h
        exact habove
      · cases tie with
        | up =>
          cases h
          exact habove
        | toEven =>
          dsimp only at h
          split at h
          · cases h
            exact hbelow
          · cases h
            exact habove
  · next hbelow _ =>
    cases h
    exact hbelow
  · next _ habove =>
    cases h
    exact habove
  · cases h

/-- The exact expansion reads back. -/
theorem ofDecimal_exact (m : Magnitude) :
    Binary64.ofDecimal false (exact m) = .finite false m := by
  obtain ⟨k, hk, hunits⟩ := Magnitude.unitsInOne_eq_pow
  have hexact : exact m = ⟨m.units * Nat.pow 5 k, -(k : Int)⟩ := by
    subst hk
    rfl
  have hshift : (-(k : Int)).toNat = 0 := by omega
  have hplaces : (- -(k : Int)).toNat = k := by omega
  have hnumerator : m.units * Nat.pow 5 k * Magnitude.unitsInOne * 1 = m.units * Nat.pow 10 k := by
    rw [hunits, Nat.mul_one, Nat.mul_assoc]
    exact congrArg (m.units * ·) (Nat.mul_pow 5 2 k).symm
  have hround := Magnitude.round_congr (Nat.pow_pos (by decide)) Nat.one_pos hnumerator
  rw [Magnitude.round_units] at hround
  rw [Binary64.ofDecimal_eq_ofRatio, Binary64.ofRatio_eq_finite_iff, hexact, numerator, denominator,
    hshift, hplaces]
  rw [show Nat.pow 10 0 = 1 from rfl, Nat.mul_one]
  exact hround

/-- The shortest decimal of a magnitude reads back. -/
theorem ofDecimal_shortest (tie : Tie) (m : Magnitude) :
    Binary64.ofDecimal false (shortest tie m) = .finite false m := by
  unfold shortest
  split
  · next hzero =>
    have hscale : m.scale = 0 := by
      refine m.normal.resolve_right fun hle => ?_
      rw [hzero] at hle
      exact absurd hle (by decide)
    obtain ⟨mantissa, scale, _, _, _⟩ := m
    cases hzero
    cases hscale
    rfl
  · rw [Binary64.ofDecimal_congr false (sameValue_trim _)]
    cases hfound : (List.range 17).findSome? fun n => onGrid? tie m (leading m - Int.ofNat n) with
    | none => exact ofDecimal_exact m
    | some d =>
      obtain ⟨n, -, hgrid⟩ := List.exists_of_findSome?_eq_some hfound
      exact eq_of_beq (readsAs_of_onGrid? hgrid)

/-! ## Reading positional text -/

theorem takeWhile_digits_append {digits rest : List Char} (hdigits : ∀ c ∈ digits, isDigit c)
    (hrest : ∀ c tail, rest = c :: tail → isDigit c = false) :
    (digits ++ rest).takeWhile isDigit = digits := by
  rw [List.takeWhile_append_of_pos hdigits]
  cases rest with
  | nil => rw [List.takeWhile_nil, List.append_nil]
  | cons c tail =>
    rw [List.takeWhile_cons_of_neg (by rw [hrest c tail rfl]; decide), List.append_nil]

theorem dropWhile_digits_append {digits rest : List Char} (hdigits : ∀ c ∈ digits, isDigit c)
    (hrest : ∀ c tail, rest = c :: tail → isDigit c = false) :
    (digits ++ rest).dropWhile isDigit = rest := by
  rw [List.dropWhile_append_of_pos hdigits]
  cases rest with
  | nil => rfl
  | cons c tail => exact List.dropWhile_cons_of_neg (by rw [hrest c tail rfl]; decide)

theorem takeWhile_digits {cs : List Char} (h : ∀ c ∈ cs, isDigit c) :
    cs.takeWhile isDigit = cs := by
  have happend := @takeWhile_digits_append cs [] h fun _ _ hnil => nomatch hnil
  rwa [List.append_nil] at happend

theorem dropWhile_digits {cs : List Char} (h : ∀ c ∈ cs, isDigit c) :
    cs.dropWhile isDigit = [] := by
  have happend := @dropWhile_digits_append cs [] h fun _ _ hnil => nomatch hnil
  rwa [List.append_nil] at happend

/-- Digits alone are read as a whole number. -/
theorem readDecimal?_digits {cs : List Char} (h : ∀ c ∈ cs, isDigit c) (hne : cs ≠ []) :
    Binary64.readDecimal? cs = some ⟨ofDigits cs, 0⟩ := by
  simp [Binary64.readDecimal?, takeWhile_digits h, dropWhile_digits h, hne,
    Binary64.readExponent?]

/-- Digits with a point among them are read as so many digits, less a place for each behind the
point. -/
theorem readDecimal?_point {whole fraction : List Char} (hwhole : ∀ c ∈ whole, isDigit c)
    (hfraction : ∀ c ∈ fraction, isDigit c) (hne : whole ≠ []) :
    Binary64.readDecimal? (whole ++ '.' :: fraction) =
      some ⟨ofDigits (whole ++ fraction), -(fraction.length : Int)⟩ := by
  have hpoint : ∀ c tail, '.' :: fraction = c :: tail → isDigit c = false := by
    rintro _ _ heq
    cases heq
    decide
  simp [Binary64.readDecimal?, takeWhile_digits_append hwhole hpoint,
    dropWhile_digits_append hwhole hpoint, takeWhile_digits hfraction, dropWhile_digits hfraction,
    hne, Binary64.readExponent?]

theorem isDigit_of_mem_zeros {k : Nat} {c : Char} (h : c ∈ List.replicate k '0') : isDigit c := by
  rw [List.eq_of_mem_replicate h]
  decide

/-- The two forms of positional text: the digits with zeros behind them, or a point in front of as
many digits as the exponent is below zero. -/
theorem positional_cases (d : Decimal) :
    (∃ zeros : Nat, d.exponent = zeros ∧
      d.positional = toDigits d.digits ++ List.replicate zeros '0') ∨
    ∃ whole fraction, d.positional = whole ++ '.' :: fraction ∧ whole ≠ [] ∧
      (∀ c ∈ whole, isDigit c) ∧ (∀ c ∈ fraction, isDigit c) ∧
      ofDigits (whole ++ fraction) = d.digits ∧ -(fraction.length : Int) = d.exponent := by
  obtain ⟨digits, exponent⟩ := d
  have hdigits : ∀ c ∈ toDigits digits, isDigit c := fun c hc => isDigit_of_mem_toDigits hc
  have hne := toDigits_ne_nil digits
  unfold positional
  dsimp only
  split
  · next hnonneg => exact .inl ⟨exponent.toNat, (Int.toNat_of_nonneg hnonneg).symm, rfl⟩
  · next hneg =>
    refine .inr ?_
    split
    · -- enough digits: the point stands among them
      refine ⟨_, _, rfl, ?_, fun c hc => hdigits c (List.mem_of_mem_take hc),
        fun c hc => hdigits c (List.mem_of_mem_drop hc), ?_, ?_⟩
      · simp only [ne_eq, List.take_eq_nil_iff, hne, or_false]
        omega
      · rw [List.take_append_drop, ofDigits_toDigits]
      · rw [List.length_drop]
        omega
    · -- too few digits: zeros stand on both sides of the point
      refine ⟨List.replicate 1 '0', List.replicate _ '0' ++ toDigits digits, rfl,
        List.cons_ne_nil _ _, fun c hc => isDigit_of_mem_zeros hc,
        List.forall_mem_append.2 ⟨fun c hc => isDigit_of_mem_zeros hc, hdigits⟩, ?_, ?_⟩
      · rw [ofDigits_zeros_append, ofDigits_zeros_append, ofDigits_toDigits]
      · rw [List.length_append, List.length_replicate]
        omega

/-- Positional text is read as a decimal of the same value. -/
theorem readDecimal?_positional (d : Decimal) :
    ∃ e, Binary64.readDecimal? d.positional = some e ∧ e.SameValue d := by
  rcases d.positional_cases with ⟨zeros, hexponent, htext⟩ |
    ⟨whole, fraction, htext, hne, hwhole, hfraction, hdigits, hexponent⟩
  · rw [htext]
    refine ⟨_, readDecimal?_digits (List.forall_mem_append.2
      ⟨fun c hc => isDigit_of_mem_toDigits hc, fun c hc => isDigit_of_mem_zeros hc⟩)
      (List.append_ne_nil_of_left_ne_nil (toDigits_ne_nil _) _), ?_⟩
    have hshift := sameValue_shift d.digits zeros 0
    rw [Int.zero_add, ← hexponent] at hshift
    rw [ofDigits_append_zeros, ofDigits_toDigits]
    exact hshift
  · rw [htext]
    refine ⟨_, readDecimal?_point hwhole hfraction hne, ?_⟩
    rw [hdigits, hexponent]
    rfl

theorem positional_ne_nil (d : Decimal) : d.positional ≠ [] := by
  rcases d.positional_cases with ⟨zeros, -, htext⟩ | ⟨whole, fraction, htext, hne, -⟩
  · rw [htext]
    exact List.append_ne_nil_of_left_ne_nil (toDigits_ne_nil _) _
  · rw [htext]
    exact List.append_ne_nil_of_left_ne_nil hne _

/-- Positional text has digits and points only. -/
theorem isDigit_or_point_of_mem_positional {d : Decimal} {c : Char} (h : c ∈ d.positional) :
    isDigit c ∨ c = '.' := by
  rcases d.positional_cases with ⟨zeros, -, htext⟩ |
    ⟨whole, fraction, htext, -, hwhole, hfraction, -⟩
  · rw [htext] at h
    rcases List.mem_append.1 h with h | h
    · exact .inl (isDigit_of_mem_toDigits h)
    · exact .inl (isDigit_of_mem_zeros h)
  · rw [htext] at h
    rcases List.mem_append.1 h with h | h
    · exact .inl (hwhole c h)
    · rcases List.mem_cons.1 h with h | h
      · exact .inr h
      · exact .inl (hfraction c h)

end Decimal

/-! ## Texts of numbers -/

namespace Binary64

theorem same_self {negative : Bool} {m : Magnitude} :
    (finite negative m).same (finite negative m) := by
  rw [same, compare?, Std.compare_self]
  rfl

/-- Text without a sign is read without one, and with a minus sign as negative. -/
theorem read?_of_unsigned {cs : List Char} (h : ∀ c ∈ cs, Decimal.isDigit c ∨ c = '.') :
    read? (String.ofList cs) = readUnsigned? false cs ∧
      read? ("-" ++ String.ofList cs) = readUnsigned? true cs := by
  refine ⟨?_, ?_⟩
  · rw [read?, String.toList_ofList]
    split
    · exact absurd (h '-' (List.mem_cons_self ..)) (by decide)
    · exact absurd (h '+' (List.mem_cons_self ..)) (by decide)
    · rfl
  · have hsign : ("-" ++ String.ofList cs).toList = '-' :: cs := by simp
    rw [read?, hsign]
    rfl

/-- The text of a decimal with a sign in front reads as that decimal with the sign. -/
theorem read?_positional {d : Decimal} {m : Magnitude}
    (h : ofDecimal false d = .finite false m) (negative : Bool) :
    read? (if negative then "-" ++ String.ofList d.positional else String.ofList d.positional) =
      some (.finite negative m) := by
  obtain ⟨hplus, hminus⟩ := read?_of_unsigned fun c hc =>
    Decimal.isDigit_or_point_of_mem_positional hc
  obtain ⟨e, hread, hvalue⟩ := d.readDecimal?_positional
  have hunsigned : ∀ sign, readUnsigned? sign d.positional = some (.finite sign m) := by
    intro sign
    rw [readUnsigned?, hread]
    exact congrArg some ((ofDecimal_congr sign hvalue).trans (ofDecimal_eq_finite_iff.2 h))
  cases negative with
  | false => exact hplus.trans (hunsigned false)
  | true => exact hminus.trans (hunsigned true)

/-- A number that is an integer is so many ones, with its sign. -/
theorem integer?_eq_some {negative : Bool} {m : Magnitude} {n : Int}
    (h : integer? (.finite negative m) = some n) :
    n.natAbs * Magnitude.unitsInOne = m.units ∧ (n < 0 → negative) ∧
      (0 ≤ n → negative → m.units = 0) := by
  rw [integer?] at h
  split at h
  · next hmod =>
    have hpos := Magnitude.unitsInOne_pos
    have hunits : m.units / Magnitude.unitsInOne * Magnitude.unitsInOne = m.units :=
      Nat.div_mul_cancel (Nat.dvd_of_mod_eq_zero hmod)
    have hposition : position negative m =
        (if negative then -((m.units / Magnitude.unitsInOne : Nat) : Int)
          else ((m.units / Magnitude.unitsInOne : Nat) : Int)) * (Magnitude.unitsInOne : Int) := by
      rw [position]
      split
      · rw [Int.neg_mul, ← Int.natCast_mul, hunits]
      · rw [← Int.natCast_mul, hunits]
    rw [hposition, Int.mul_ediv_cancel _ (by omega)] at h
    generalize m.units / Magnitude.unitsInOne = ones at h hunits
    cases negative with
    | false =>
      cases h
      refine ⟨hunits, ?_, ?_⟩
      · intro hlt
        exact absurd (show (ones : Int) < 0 from hlt) (by omega)
      · intro _ hfalse
        cases hfalse
    | true =>
      cases h
      refine ⟨?_, fun _ => rfl, ?_⟩
      · rw [← hunits]
        exact congrArg (· * Magnitude.unitsInOne) (Int.natAbs_neg ones)
      · intro hnonneg _
        have hzero : ones = 0 := by
          have : (0 : Int) ≤ -(ones : Int) := hnonneg
          omega
        rw [← hunits, hzero, Nat.zero_mul]
  · cases h

/-- As many ones as a magnitude has units for are the magnitude. -/
theorem ofDecimal_of_ones {m : Magnitude} {ones : Nat}
    (h : ones * Magnitude.unitsInOne = m.units) :
    ofDecimal false ⟨ones, 0⟩ = .finite false m := by
  rw [ofDecimal_eq_ofRatio, ofRatio_eq_finite_iff]
  show Magnitude.round (ones * 1 * Magnitude.unitsInOne) 1 = some m
  rw [Nat.mul_one, h]
  exact Magnitude.round_units m

end Binary64

namespace Literal

/-- A finite number is read back from its text, up to the sign of a zero. -/
theorem read?_numberDisplay {x : Binary64} (h : x.isFinite) :
    ∃ y, Binary64.read? (numberDisplay x) = some y ∧ y.isFinite ∧ y.same x := by
  match x, h with
  | .finite negative m, _ =>
    have hpositional : ∃ y, Binary64.read? (Binary64.positional (.finite negative m)) = some y ∧
        y.isFinite ∧ y.same (.finite negative m) :=
      ⟨_, Binary64.read?_positional (Decimal.ofDecimal_shortest .up m) negative, rfl,
        Binary64.same_self⟩
    unfold numberDisplay
    split
    · next n hinteger =>
      split
      · obtain ⟨hones, hnegative, hzero⟩ := Binary64.integer?_eq_some hinteger
        have hread := Binary64.read?_positional (Binary64.ofDecimal_of_ones hones)
        have hdigits : Decimal.positional ⟨n.natAbs, 0⟩ = Decimal.toDigits n.natAbs :=
          List.append_nil _
        rw [hdigits] at hread
        rw [Json.numberText]
        split
        · next hlt =>
          have hsign : negative = true := hnegative hlt
          subst hsign
          exact ⟨_, hread true, rfl, Binary64.same_self⟩
        · next hge =>
          refine ⟨_, hread false, rfl, ?_⟩
          cases negative with
          | false => exact Binary64.same_self
          | true =>
            -- the minus sign of a zero is not shown
            have hunits := hzero (by omega) rfl
            rw [Binary64.same, Binary64.compare?, Binary64.position, Binary64.position, hunits]
            rfl
      · exact hpositional
    · exact hpositional

/-- The text of a finite number is digits, points and minus signs, and not empty. -/
theorem numberDisplay_chars {x : Binary64} (h : x.isFinite) :
    (numberDisplay x).toList ≠ [] ∧
      ∀ c ∈ (numberDisplay x).toList, Decimal.isDigit c ∨ c = '.' ∨ c = '-' := by
  have htext : ∀ (negative : Bool) (cs : List Char), cs ≠ [] →
      (∀ c ∈ cs, Decimal.isDigit c ∨ c = '.') →
      (if negative then "-" ++ String.ofList cs else String.ofList cs).toList ≠ [] ∧
        ∀ c ∈ (if negative then "-" ++ String.ofList cs else String.ofList cs).toList,
          Decimal.isDigit c ∨ c = '.' ∨ c = '-' := by
    intro negative cs hne hcs
    cases negative with
    | false =>
      refine ⟨by simpa using hne, ?_⟩
      intro c hc
      exact (hcs c (by simpa using hc)).imp_right .inl
    | true =>
      refine ⟨by simp, ?_⟩
      intro c hc
      have hmem : c = '-' ∨ c ∈ cs := by simpa using hc
      rcases hmem with rfl | hmem
      · exact .inr (.inr rfl)
      · exact (hcs c hmem).imp_right .inl
  match x, h with
  | .finite negative m, _ =>
    have hpositional := htext negative (Decimal.shortest .up m).positional
      (Decimal.positional_ne_nil _) fun c hc => Decimal.isDigit_or_point_of_mem_positional hc
    unfold numberDisplay
    split
    · next n _ =>
      split
      · have hdigits := htext (n < 0) (Decimal.toDigits n.natAbs) (Decimal.toDigits_ne_nil _)
          fun c hc => .inl (Decimal.isDigit_of_mem_toDigits hc)
        simp only [decide_eq_true_eq] at hdigits
        exact hdigits
      · exact hpositional
    · exact hpositional

/-- A text between quotes writes that text, whatever it looks like. -/
theorem ofWord_quoted (text : String) : ofWord ("'" ++ text ++ "'") = .text text := by
  have hlist : ("'" ++ text ++ "'").toList = '\'' :: (text.toList ++ ['\'']) := by simp
  have hread : Binary64.read? ("'" ++ text ++ "'") = none := by
    have hdecimal : Binary64.readDecimal? ('\'' :: (text.toList ++ ['\''])) = none := rfl
    rw [Binary64.read?, hlist]
    show Binary64.readUnsigned? false ('\'' :: (text.toList ++ ['\''])) = none
    rw [Binary64.readUnsigned?, hdecimal]
    rfl
  have hunquote : unquote ("'" ++ text ++ "'") = text := by
    simp only [unquote, hlist]
    rw [List.getLast?_concat, List.dropLast_concat]
    exact String.ofList_toList
  rw [ofWord, hread]
  exact congrArg Literal.text hunquote

/-- A literal is read back from what a rule shows of it. -/
theorem same_ofWord_display {literal : Literal} (h : literal.isFinite) :
    (ofWord literal.display).same literal := by
  cases literal with
  | number x =>
    obtain ⟨y, hread, hfinite, hsame⟩ := read?_numberDisplay h
    rw [display, ofWord, hread]
    show (if y.isFinite then Literal.number y else _).same (.number x)
    rw [if_pos hfinite]
    exact hsame
  | text s =>
    rw [display, ofWord_quoted]
    exact beq_self_eq_true s

end Literal

end Rulebook
