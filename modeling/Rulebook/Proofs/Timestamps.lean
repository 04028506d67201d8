import Rulebook.Proofs.NumberText
import Rulebook.Proofs.Results
import Rulebook.Record.Timestamp

/-!
# Timestamps are read from their text

The date of a day is a date of the calendar, and its number is the day again
(`Timestamp.date_dateOfDay`). The year of a day is found inside its century, where every fourth
year is a leap year; only the last day of four centuries belongs to none of them
(`Timestamp.year_of_era`). So what is written of a timestamp is read as the same timestamp
(`Timestamp.read_print`), as long as the calendar has its day and its nanoseconds belong to its
second (`Timestamp.Valid`). No other timestamps are ever read (`Timestamp.valid_iff`).
-/

namespace Rulebook.Timestamp

/-! ## Days and dates -/

/-- The days of four centuries before a year of them, counted from March. -/
def daysBefore (year : Int) : Int := 365 * year + year / 4 - year / 100

/-- The year in which a day of a century falls. How many leap days the centuries before it have
had makes no difference. -/
theorem year_of_century {day year centuries : Int} (hday : 0 ≤ day ∧ day ≤ 36523)
    (hcenturies : 0 ≤ centuries ∧ centuries ≤ 3)
    (hyear : year = (day - (day + 24 * centuries) / 1460) / 365) :
    (0 ≤ year ∧ year ≤ 99) ∧ 365 * year + year / 4 ≤ day ∧
      day < 365 * (year + 1) + (year + 1) / 4 := by
  have hlow : 0 ≤ year := by omega
  have hhigh : year ≤ 99 := by omega
  refine ⟨⟨hlow, hhigh⟩, ?_, ?_⟩
  · omega
  · omega

/-- The year in which a day of four centuries falls. The last day of them all is the day that the
leap year at their end adds. -/
theorem year_of_era {day year : Int} (hday : 0 ≤ day ∧ day < 146097)
    (hyear : year = (day - day / 1460 + day / 36524 - day / 146096) / 365) :
    (0 ≤ year ∧ year ≤ 399) ∧ daysBefore year ≤ day ∧
      (day < daysBefore (year + 1) ∨ year = 399 ∧ day = 146096) := by
  by_cases hlast : day = 146096
  · subst hlast
    obtain rfl : year = 399 := hyear
    decide
  · -- any other day lies in a century, in which its year is found
    obtain ⟨century, hcentury⟩ : ∃ century, century = day / 36524 := ⟨_, rfl⟩
    obtain ⟨rest, hrest⟩ : ∃ rest, rest = day % 36524 := ⟨_, rfl⟩
    obtain ⟨yearOf, hyearOf⟩ : ∃ y, y = (rest - (rest + 24 * century) / 1460) / 365 := ⟨_, rfl⟩
    have hsum : year = 100 * century + yearOf := by omega
    obtain ⟨hbounds, hlow, hhigh⟩ := year_of_century (by omega) (by omega) hyearOf
    have hleaps : year / 4 = 25 * century + yearOf / 4 := by omega
    have hmissed : year / 100 = century := by omega
    have hleaps' : (year + 1) / 4 = 25 * century + (yearOf + 1) / 4 := by omega
    have hmissed' : (year + 1) / 100 = century + (yearOf + 1) / 100 := by omega
    refine ⟨by omega, ?_, .inl ?_⟩
    · rw [daysBefore, hleaps, hmissed]
      omega
    · rw [daysBefore, hleaps', hmissed']
      omega

/-- A date of the calendar: a month of the year and a day of the month. -/
structure IsDate (year : Int) (month day : Nat) : Prop where
  month_bounds : 1 ≤ month ∧ month ≤ 12
  day_bounds : 1 ≤ day ∧ day ≤ daysInMonth year month

theorem daysInMonth_le (year : Int) (month : Nat) : daysInMonth year month ≤ 31 := by
  unfold daysInMonth
  split
  · split <;> decide
  · split <;> decide

/-- A year that is counted from March and has one more day ends in a leap year. -/
theorem isLeapYear_of_longer {year era : Int}
    (h : daysBefore (year + 1) - daysBefore year = 366 ∨ year = 399) :
    isLeapYear (year + era * 400 + 1) = true := by
  simp only [isLeapYear, Bool.and_eq_true, Bool.or_eq_true, beq_iff_eq, bne_iff_ne]
  simp only [daysBefore] at h
  omega

/-- The month and the day of the month, from the day of a year that is counted from March. The
366th day is the last of February, and only if the year ends in a leap year. -/
theorem isDate_of_dayOfYear {year day fromMarch month : Int} (hday : 0 ≤ day ∧ day ≤ 365)
    (hlast : day = 365 → isLeapYear (year + 1) = true)
    (hfromMarch : fromMarch = (5 * day + 2) / 153)
    (hmonth : fromMarch < 10 ∧ month = fromMarch + 3 ∨
      10 ≤ fromMarch ∧ month = fromMarch - 9) :
    IsDate (year + if month ≤ 2 then 1 else 0) month.toNat
      (day - (153 * fromMarch + 2) / 5 + 1).toNat := by
  have hbound : fromMarch ≤ 11 := by omega
  refine ⟨by omega, by omega, ?_⟩
  unfold daysInMonth
  split
  · have hfebruary : month ≤ 2 := by omega
    rw [if_pos hfebruary]
    split
    · omega
    · next hleap =>
      have : day ≠ 365 := fun h => hleap (hlast h)
      omega
  · split
    · omega
    · omega

/-- The date of a day is a date of the calendar, and its number is the day. -/
theorem date_dateOfDay (day : Int) :
    let (year, month, dayOfMonth) := dateOfDay day
    IsDate year month dayOfMonth ∧ dayNumber year month dayOfMonth = day := by
  -- what is found on the way gets a name, so that no division stands inside another
  obtain ⟨era, hera⟩ : ∃ era, era = (day + 719468) / 146097 := ⟨_, rfl⟩
  obtain ⟨dayOfEra, hdayOfEra⟩ : ∃ d, d = (day + 719468) % 146097 := ⟨_, rfl⟩
  obtain ⟨year, hyear⟩ : ∃ year, year =
    (dayOfEra - dayOfEra / 1460 + dayOfEra / 36524 - dayOfEra / 146096) / 365 := ⟨_, rfl⟩
  obtain ⟨dayOfYear, hdayOfYear⟩ : ∃ d, d = dayOfEra - daysBefore year := ⟨_, rfl⟩
  obtain ⟨fromMarch, hfromMarch⟩ : ∃ m, m = (5 * dayOfYear + 2) / 153 := ⟨_, rfl⟩
  obtain ⟨month, hmonth⟩ : ∃ m, m = if fromMarch < 10 then fromMarch + 3 else fromMarch - 9 :=
    ⟨_, rfl⟩
  have hdate : dateOfDay day = (year + era * 400 + (if month ≤ 2 then 1 else 0), month.toNat,
      (dayOfYear - (153 * fromMarch + 2) / 5 + 1).toNat) := by
    have hparen : dayOfYear = dayOfEra - (365 * year + year / 4 - year / 100) := hdayOfYear
    rw [dateOfDay, ← hera, ← hdayOfEra, ← hyear, ← hparen, ← hfromMarch, ← hmonth]
  obtain ⟨hbounds, hlow, hhigh⟩ := year_of_era (by omega) hyear
  have hlonger : daysBefore (year + 1) - daysBefore year ≤ 366 := by
    simp only [daysBefore]
    omega
  have hinYear : 0 ≤ dayOfYear ∧ dayOfYear ≤ 365 := by
    rcases hhigh with h | ⟨rfl, h⟩
    · omega
    · have : daysBefore 399 = 145731 := rfl
      omega
  have hleap : dayOfYear = 365 → isLeapYear (year + era * 400 + 1) = true := by
    intro h
    exact isLeapYear_of_longer (by omega)
  have hmarch : fromMarch < 10 ∧ month = fromMarch + 3 ∨
      10 ≤ fromMarch ∧ month = fromMarch - 9 := by
    split at hmonth
    · next h => exact .inl ⟨h, hmonth⟩
    · next h => exact .inr ⟨by omega, hmonth⟩
  have hisDate := isDate_of_dayOfYear hinYear hleap hfromMarch hmarch
  rw [hdate]
  refine ⟨hisDate, ?_⟩
  -- the number of the date takes each of these steps back
  have hyearBack : (if month.toNat ≤ 2 then year + era * 400 + (if month ≤ 2 then 1 else 0) - 1
      else year + era * 400 + (if month ≤ 2 then 1 else 0)) = year + era * 400 := by
    split <;> split <;> omega
  have heraBack : (year + era * 400) / 400 = era := by omega
  have hyearOfEra : (year + era * 400) % 400 = year := by omega
  have hmonthBack : ((month.toNat : Int) + 9) % 12 = fromMarch := by omega
  have hdayBack : ((dayOfYear - (153 * fromMarch + 2) / 5 + 1).toNat : Int) =
      dayOfYear - (153 * fromMarch + 2) / 5 + 1 := by
    have := hisDate.day_bounds.1
    omega
  rw [dayNumber, hyearBack, heraBack, hyearOfEra, hmonthBack, hdayBack]
  rw [daysBefore] at hdayOfYear
  omega

/-! ## Numbers with zeros in front -/

open Decimal

theorem padded_digits {width n : Nat} {c : Char} (h : c ∈ padded width n) : isDigit c := by
  rcases List.mem_append.1 h with h | h
  · exact isDigit_of_mem_zeros h
  · exact isDigit_of_mem_toDigits h

theorem ofDigits_padded (width n : Nat) : ofDigits (padded width n) = n := by
  rw [padded, ofDigits_zeros_append, ofDigits_toDigits]

theorem padded_ne_nil (width n : Nat) : padded width n ≠ [] :=
  List.append_ne_nil_of_right_ne_nil _ (toDigits_ne_nil n)

theorem isEmpty_padded (width n : Nat) : (padded width n).isEmpty = false :=
  List.isEmpty_eq_false_iff.2 (padded_ne_nil width n)

theorem length_padded {width n : Nat} (hwidth : 0 < width) (h : n < Nat.pow 10 width) :
    (padded width n).length = width := by
  have hdigits : (toDigits n).length ≤ width :=
    (Nat.length_toDigits_le_iff (by decide) hwidth).2 h
  rw [padded, List.length_append, List.length_replicate]
  omega

theorem dropBlank_padded (width n : Nat) (rest : List Char) :
    Text.dropBlank (padded width n ++ rest) = padded width n ++ rest := by
  obtain ⟨c, tail, htext⟩ := List.exists_cons_of_ne_nil (padded_ne_nil width n)
  have hblank : Text.isBlank c = false :=
    isBlank_of_isDigit (padded_digits (htext ▸ List.mem_cons_self ..))
  rw [htext, List.cons_append]
  exact List.dropWhile_cons_of_neg (by rw [hblank]; decide)

/-- Digits are taken up to a limit or up to what is no digit. -/
theorem digitsUpTo_append {limit : Nat} {digits rest : List Char} (h : ∀ c ∈ digits, isDigit c)
    (hlimit : digits.length ≤ limit)
    (hrest : digits.length = limit ∨ ∀ c tail, rest = c :: tail → isDigit c = false) :
    digitsUpTo limit (digits ++ rest) = digits := by
  induction digits generalizing limit with
  | nil =>
    cases limit with
    | zero => rfl
    | succ limit =>
      cases rest with
      | nil => rfl
      | cons c tail =>
        rcases hrest with h | h
        · cases h
        · rw [List.nil_append, digitsUpTo, h c tail rfl, if_neg Bool.false_ne_true]
  | cons c digits ih =>
    cases limit with
    | zero => cases hlimit
    | succ limit =>
      have hdigits := fun d hd => h d (.tail _ hd)
      rw [List.cons_append, digitsUpTo, if_pos (h c (.head _)),
        ih hdigits (Nat.le_of_succ_le_succ hlimit) (hrest.imp_left Nat.succ.inj)]

/-- A number is read from as many digits as it is written with. -/
theorem readNumber_padded {width n : Nat} (hwidth : 0 < width) (h : n < Nat.pow 10 width)
    (rest : List Char) : readNumber width (padded width n ++ rest) = .ok (n, rest) := by
  have hlength := length_padded hwidth h
  have hdigits : digitsUpTo width (padded width n ++ rest) = padded width n :=
    digitsUpTo_append (fun _ => padded_digits) (Nat.le_of_eq hlength) (.inl hlength)
  simp only [readNumber, dropBlank_padded, hdigits, isEmpty_padded, ofDigits_padded, List.drop_left,
    Bool.false_eq_true, if_false]
  split
  · next hnil => exact absurd (List.append_eq_nil_iff.1 hnil).1 (padded_ne_nil width n)
  · rfl

/-- Two digits are read as a number within its bounds. -/
theorem readWithin_padded {low high n : Nat} (h : low ≤ n ∧ n ≤ high) (hn : n < 100)
    (rest : List Char) : readWithin low high (padded 2 n ++ rest) = .ok (n, rest) := by
  rw [readWithin, readNumber_padded (by decide) hn]
  exact if_pos h

theorem readSign_self {sign : Char} (h : Text.isBlank sign = false) (rest : List Char) :
    readSign sign (sign :: rest) = .ok ((), rest) := by
  have hdrop : Text.dropBlank (sign :: rest) = sign :: rest :=
    List.dropWhile_cons_of_neg (by rw [h]; decide)
  rw [readSign, hdrop]
  exact if_pos rfl

/-! ## Years and places of a second -/

/-- A year with a sign is read up to what is no digit. -/
theorem readSigned_padded (negative : Bool) {year : Int} {rest : List Char}
    (hyear : (if negative then -(year.natAbs : Int) else year.natAbs) = year)
    (hbounds : -(Nat.pow 2 31 : Int) ≤ year ∧ year < Nat.pow 2 31)
    (hrest : ∀ c tail, rest = c :: tail → isDigit c = false) :
    readSigned negative (padded 4 year.natAbs ++ rest) = .ok (year, rest) := by
  have hdigits : ∀ c ∈ padded 4 year.natAbs, isDigit c := fun _ => padded_digits
  unfold readSigned
  split
  · next hnil => exact absurd (List.append_eq_nil_iff.1 hnil).1 (padded_ne_nil 4 year.natAbs)
  · simp only [takeWhile_digits_append hdigits hrest, isEmpty_padded, ofDigits_padded, hyear,
      List.drop_left, Bool.false_eq_true, if_false]
    exact if_pos hbounds

/-- A year is read from its text. -/
theorem readYear_yearText {year : Int} (h : -(Nat.pow 2 31 : Int) ≤ year ∧ year < Nat.pow 2 31)
    (rest : List Char) : readYear (yearText year ++ '-' :: rest) = .ok (year, '-' :: rest) := by
  have hdash : ∀ c tail, '-' :: rest = c :: tail → isDigit c = false := by
    rintro _ _ heq
    cases heq
    rfl
  unfold yearText
  split
  · next hfour =>
    have hsmall : year.toNat < Nat.pow 10 4 := by
      have : Nat.pow 10 4 = 10000 := rfl
      omega
    have hread := readNumber_padded (by decide : 0 < 4) hsmall ('-' :: rest)
    have hback : ((year.toNat : Nat) : Int) = year := Int.toNat_of_nonneg hfour.1
    obtain ⟨c, tail, htext⟩ := List.exists_cons_of_ne_nil (padded_ne_nil 4 year.toNat)
    have hc : isDigit c := padded_digits (htext ▸ List.mem_cons_self ..)
    have hdrop := dropBlank_padded 4 year.toNat ('-' :: rest)
    rw [htext, List.cons_append] at hdrop hread ⊢
    rw [readYear, hdrop]
    split
    · next heq =>
      cases heq
      cases hc
    · next heq =>
      cases heq
      cases hc
    · rw [hread]
      exact congrArg (fun y => Except.ok (y, '-' :: rest)) hback
  · next hfour =>
    by_cases hnegative : year < 0
    · rw [if_pos hnegative]
      exact readSigned_padded true (by rw [if_pos rfl]; omega) h hdash
    · rw [if_neg hnegative]
      exact readSigned_padded false (by rw [if_neg Bool.false_ne_true]; omega) h hdash

/-- So many places of a second are read as the nanoseconds that they stand for. -/
theorem readFraction_padded {width n : Nat} (hwidth : 0 < width ∧ width ≤ 9)
    (h : n < Nat.pow 10 width) :
    readFraction ('.' :: (padded width n ++ ['Z'])) = .ok (n * Nat.pow 10 (9 - width), ['Z']) := by
  have hdigits : ∀ c ∈ padded width n, isDigit c := fun _ => padded_digits
  have hlength := length_padded hwidth.1 h
  have hends : ∀ c tail, ['Z'] = c :: tail → isDigit c = false := by
    rintro _ _ heq
    cases heq
    rfl
  have htake : digitsUpTo 9 (padded width n ++ ['Z']) = padded width n :=
    digitsUpTo_append hdigits (by omega) (.inr hends)
  unfold readFraction
  split
  · next heq => exact absurd (List.cons.inj heq).2 (by simp)
  · next rest _ heq =>
    obtain rfl := (List.cons.inj heq).2
    simp only [htake, isEmpty_padded, ofDigits_padded, hlength,
      dropWhile_digits_append hdigits hends, Bool.false_eq_true, if_false]
  · next hpoint => exact absurd rfl (hpoint _)

/-- The places of a second are read from their text. -/
theorem readFraction_fractionText {nanos : Nat} (h : nanos < Nat.pow 10 9) :
    readFraction (fractionText nanos ++ ['Z']) = .ok (nanos, ['Z']) := by
  have hnine : Nat.pow 10 9 = 1000000000 := rfl
  have hsix : Nat.pow 10 6 = 1000000 := rfl
  have hthree : Nat.pow 10 3 = 1000 := rfl
  unfold fractionText
  split
  · next hzero => rw [hzero]; rfl
  split
  · next hmillis =>
    have hback : nanos / 1000000 * 1000000 = nanos := by omega
    rw [List.cons_append, readFraction_padded (by decide) (by omega)]
    exact congrArg (fun n => Except.ok (n, ['Z'])) hback
  split
  · next hmicros =>
    have hback : nanos / 1000 * 1000 = nanos := by omega
    rw [List.cons_append, readFraction_padded (by decide) (by omega)]
    exact congrArg (fun n => Except.ok (n, ['Z'])) hback
  · rw [List.cons_append, readFraction_padded (by decide) h]
    exact congrArg (fun n => Except.ok (n, ['Z'])) (Nat.mul_one nanos)

/-! ## Timestamps -/

/-- A timestamp that the calendar has. Its nanoseconds run on only past the last second of a
minute. -/
structure Valid (t : Timestamp) : Prop where
  day : firstDay ≤ t.seconds / 86400 ∧ t.seconds / 86400 ≤ lastDay
  nanos : t.nanos < Nat.pow 10 9 ∨ t.nanos < 2 * Nat.pow 10 9 ∧ t.seconds % 60 = 59

theorem firstDay_eq : firstDay = -96465292 := rfl

theorem lastDay_eq : lastDay = 95026236 := rfl

/-- The years of the calendar fit into 32 bits. -/
theorem year_bounds {day year : Int} {month dayOfMonth : Nat}
    (hbounds : firstDay ≤ day ∧ day ≤ lastDay) (hdate : IsDate year month dayOfMonth)
    (hday : dayNumber year month dayOfMonth = day) :
    -(Nat.pow 2 31 : Int) ≤ year ∧ year < Nat.pow 2 31 := by
  have hpow : (Nat.pow 2 31 : Int) = 2147483648 := rfl
  have hmonth := hdate.month_bounds
  have hdayOfMonth := Nat.le_trans hdate.day_bounds.2 (daysInMonth_le year month)
  rw [firstDay_eq, lastDay_eq, ← hday] at hbounds
  simp only [dayNumber] at hbounds
  rw [hpow]
  split at hbounds <;> omega

/-- The text of a date and a time of day is read as the instant that they make. -/
theorem read_text {year : Int} {month day hour minute second nanos : Nat}
    (hyear : -(Nat.pow 2 31 : Int) ≤ year ∧ year < Nat.pow 2 31) (hdate : IsDate year month day)
    (hhour : hour ≤ 23) (hminute : minute ≤ 59) (hsecond : second ≤ 60)
    (hnanos : nanos < Nat.pow 10 9) :
    read (String.ofList (yearText year ++ '-' :: padded 2 month ++ '-' :: padded 2 day ++
      'T' :: padded 2 hour ++ ':' :: padded 2 minute ++ ':' :: padded 2 second ++
      fractionText nanos ++ ['Z'])) = ofParts year month day hour minute second nanos 0 := by
  have hday := Nat.le_trans hdate.day_bounds.2 (daysInMonth_le year month)
  have hdash := readSign_self (by decide : Text.isBlank '-' = false)
  have hcolon := readSign_self (by decide : Text.isBlank ':' = false)
  have hmonth :=
    readWithin_padded hdate.month_bounds (Nat.lt_of_le_of_lt hdate.month_bounds.2 (by decide))
  have hdayOfMonth :=
    readWithin_padded ⟨hdate.day_bounds.1, hday⟩ (Nat.lt_of_le_of_lt hday (by decide))
  have hhour := readWithin_padded ⟨hour.zero_le, hhour⟩ (Nat.lt_of_le_of_lt hhour (by decide))
  have hminute :=
    readWithin_padded ⟨minute.zero_le, hminute⟩ (Nat.lt_of_le_of_lt hminute (by decide))
  have hsecond :=
    readWithin_padded ⟨second.zero_le, hsecond⟩ (Nat.lt_of_le_of_lt hsecond (by decide))
  have hfraction := readFraction_fractionText hnanos
  rw [read, String.toList_ofList]
  simp only [List.append_assoc, List.cons_append, readYear_yearText hyear, Except.ok_bind, hdash,
    hcolon, hmonth, hdayOfMonth, hhour, hminute, hsecond, hfraction, true_or, if_true]
  rfl

/-- A second of universal time is put together from its date and its time of day. The second 60
stands for a second that goes on. -/
theorem ofParts_eq {seconds : Int} {year : Int} {month day hour minute second nanos : Nat}
    (hbounds : firstDay ≤ seconds / 86400 ∧ seconds / 86400 ≤ lastDay)
    (hdate : IsDate year month day) (hday : dayNumber year month day = seconds / 86400)
    (htime : seconds % 86400 = hour * 3600 + minute * 60 + if second = 60 then 59 else second) :
    ofParts year month day hour minute second nanos 0 =
      .ok ⟨seconds, if second = 60 then Nat.pow 10 9 + nanos else nanos⟩ := by
  have hseconds : seconds / 86400 * 86400 + hour * 3600 + minute * 60 +
      ((if second = 60 then 59 else second : Nat) : Int) - 0 = seconds := by omega
  rw [ofParts, hday]
  simp only [hseconds]
  rw [if_neg, if_neg (by decide), if_neg]
  · omega
  · have := hdate.day_bounds.2
    omega

/-- The time of day that is written of a timestamp makes the timestamp. -/
theorem ofParts_date {t : Timestamp} (h : t.Valid) {year : Int} {month day : Nat}
    (hdate : IsDate year month day) (hday : dayNumber year month day = t.seconds / 86400) :
    let ofDay := (t.seconds % 86400).toNat
    let leap := Nat.pow 10 9 ≤ t.nanos
    ofParts year month day (ofDay / 3600) (ofDay / 60 % 60) (ofDay % 60 + if leap then 1 else 0)
      (if leap then t.nanos - Nat.pow 10 9 else t.nanos) 0 = .ok t := by
  intro ofDay leap
  obtain ⟨seconds, nanos⟩ := t
  have hofDay : (ofDay : Int) = seconds % 86400 := Int.toNat_of_nonneg (by omega)
  by_cases hleap : leap
  · -- the second goes on after the last one of its minute
    have hlast : ofDay % 60 + 1 = 60 := by
      rcases h.nanos with hlt | ⟨-, hminute⟩
      · exact absurd hlt (Nat.not_lt_of_le hleap)
      · have : seconds % 60 = 59 := hminute
        omega
    rw [if_pos hleap, if_pos hleap, hlast,
      ofParts_eq h.day hdate hday (by rw [if_pos rfl]; omega), if_pos rfl,
      Nat.add_sub_cancel' hleap]
  · have hsecond : ofDay % 60 ≠ 60 := by omega
    rw [if_neg hleap, if_neg hleap, Nat.add_zero,
      ofParts_eq h.day hdate hday (by rw [if_neg hsecond]; omega), if_neg hsecond]

/-- **Timestamps are read from their text.** What is written of a timestamp that the calendar has
is read as that timestamp, leap seconds and years of any length included. -/
theorem read_print {t : Timestamp} (h : t.Valid) : read t.print = .ok t := by
  obtain ⟨year, month, day, hparts⟩ : ∃ year month day,
      dateOfDay (t.seconds / 86400) = (year, month, day) := ⟨_, _, _, rfl⟩
  have hdate := date_dateOfDay (t.seconds / 86400)
  rw [hparts] at hdate
  obtain ⟨hdate, hday⟩ := hdate
  have hyear := year_bounds h.day hdate hday
  have hpow : Nat.pow 10 9 = 1000000000 := rfl
  have hnanos := h.nanos
  rw [print, hparts]
  dsimp only
  rw [read_text hyear hdate (by omega) (by omega) (by split <;> omega) (by split <;> omega)]
  exact ofParts_date h hdate hday

/-! ## What is read is valid -/

/-- Digits write less than the power of ten that has one place more. -/
theorem ofDigits_lt {cs : List Char} (h : ∀ c ∈ cs, isDigit c) :
    ofDigits cs < Nat.pow 10 cs.length := by
  -- more general by the value of the digits before, to which the fold adds the others
  have hfold (n : Nat) : cs.foldl (fun n c => 10 * n + (c.toNat - '0'.toNat)) n <
      (n + 1) * Nat.pow 10 cs.length := by
    induction cs generalizing n with
    | nil => exact Nat.lt_of_lt_of_eq (Nat.lt_succ_self n) (Nat.mul_one _).symm
    | cons c cs ih =>
      obtain ⟨hc, hcs⟩ := List.forall_mem_cons.1 h
      have hdigit : c.toNat - '0'.toNat < 10 := by
        simp only [isDigit, Bool.and_eq_true, decide_eq_true_eq] at hc
        have hnine : c.toNat ≤ '9'.toNat := hc.2
        have : '9'.toNat = '0'.toNat + 9 := rfl
        omega
      calc cs.foldl _ (10 * n + (c.toNat - '0'.toNat))
          < (10 * n + (c.toNat - '0'.toNat) + 1) * Nat.pow 10 cs.length := ih hcs _
        _ ≤ ((n + 1) * 10) * Nat.pow 10 cs.length := Nat.mul_le_mul_right _ (by omega)
        _ = (n + 1) * Nat.pow 10 (cs.length + 1) := by
          rw [Nat.mul_assoc, Nat.mul_comm 10]
          rfl
  exact Nat.lt_of_lt_of_eq (hfold 0) (Nat.one_mul _)

theorem digitsUpTo_digits (limit : Nat) (cs : List Char) :
    (∀ c ∈ digitsUpTo limit cs, isDigit c) ∧ (digitsUpTo limit cs).length ≤ limit := by
  induction limit generalizing cs with
  | zero => exact ⟨List.forall_mem_nil _, Nat.le_refl 0⟩
  | succ limit ih =>
    cases cs with
    | nil => exact ⟨List.forall_mem_nil _, Nat.zero_le _⟩
    | cons c rest =>
      rw [digitsUpTo]
      split
      · next hc =>
        obtain ⟨hdigits, hlength⟩ := ih rest
        exact ⟨List.forall_mem_cons.2 ⟨hc, hdigits⟩, Nat.succ_le_succ hlength⟩
      · exact ⟨List.forall_mem_nil _, Nat.zero_le _⟩

/-- The places of a second are less than a second. -/
theorem readFraction_lt {cs rest : List Char} {nanos : Nat}
    (h : readFraction cs = .ok (nanos, rest)) : nanos < Nat.pow 10 9 := by
  unfold readFraction at h
  split at h
  · cases h
  · next after _ =>
    obtain ⟨hdigits, hlength⟩ := digitsUpTo_digits 9 after
    dsimp only at h
    split at h
    · cases h
    · cases h
      have hsplit : (digitsUpTo 9 after).length + (9 - (digitsUpTo 9 after).length) = 9 :=
        Nat.add_sub_cancel' hlength
      have hpow := Nat.pow_add 10 (digitsUpTo 9 after).length (9 - (digitsUpTo 9 after).length)
      rw [hsplit] at hpow
      exact Nat.lt_of_lt_of_eq
        (Nat.mul_lt_mul_of_pos_right (ofDigits_lt hdigits) (Nat.pow_pos (by decide))) hpow.symm
  · cases h
    decide

/-- An offset is a number of minutes. -/
theorem readOffset_minutes {cs rest : List Char} {offset : Int}
    (h : readOffset cs = .ok (offset, rest)) : offset % 60 = 0 := by
  unfold readOffset at h
  dsimp only at h
  split at h
  · cases h; rfl
  · cases h; rfl
  · obtain ⟨⟨hours, after⟩, -, h⟩ := Except.bind_eq_ok.1 h
    obtain ⟨⟨minutes, last⟩, -, h⟩ := Except.bind_eq_ok.1 h
    cases h
    omega
  · obtain ⟨⟨hours, after⟩, -, h⟩ := Except.bind_eq_ok.1 h
    obtain ⟨⟨minutes, last⟩, -, h⟩ := Except.bind_eq_ok.1 h
    cases h
    omega
  · obtain ⟨⟨hours, after⟩, -, h⟩ := Except.bind_eq_ok.1 h
    obtain ⟨⟨minutes, last⟩, -, h⟩ := Except.bind_eq_ok.1 h
    cases h
    omega
  · cases h
  · cases h

theorem readZone_minutes {cs rest : List Char} {offset : Int}
    (h : readZone cs = .ok (offset, rest)) : offset % 60 = 0 := by
  unfold readZone at h
  split at h
  · split at h
    · cases h; rfl
    · exact readOffset_minutes h
  · exact readOffset_minutes h

/-- What is put together is a timestamp of the calendar. -/
theorem valid_of_ofParts {year offset : Int} {month day hour minute second nanos : Nat}
    {t : Timestamp} (h : ofParts year month day hour minute second nanos offset = .ok t)
    (hnanos : nanos < Nat.pow 10 9) (hoffset : offset % 60 = 0) : t.Valid := by
  have hpow : Nat.pow 10 9 = 1000000000 := rfl
  rw [ofParts] at h
  generalize hseconds : dayNumber year month day * 86400 + hour * 3600 + minute * 60 +
    ((if second = 60 then 59 else second : Nat) : Int) - offset = seconds at h
  generalize hwithin : (if second = 60 then Nat.pow 10 9 + nanos else nanos) = within at h
  split at h
  · cases h
  split at h
  · cases h
  split at h
  · cases h
  · cases h
    have hday : firstDay ≤ seconds / 86400 ∧ seconds / 86400 ≤ lastDay := by omega
    refine ⟨hday, ?_⟩
    by_cases hleap : second = 60
    · rw [if_pos hleap] at hseconds hwithin
      have hlast : seconds % 60 = 59 := by omega
      have hless : within < 2 * Nat.pow 10 9 := by omega
      exact .inr ⟨hless, hlast⟩
    · rw [if_neg hleap] at hwithin
      exact .inl (hwithin ▸ hnanos)

/-- What is read is a timestamp of the calendar. -/
theorem valid_of_read {text : String} {t : Timestamp} (h : read text = .ok t) : t.Valid := by
  obtain ⟨⟨year, cs⟩, -, h⟩ := Except.bind_eq_ok.1 h
  obtain ⟨⟨_, cs⟩, -, h⟩ := Except.bind_eq_ok.1 h
  obtain ⟨⟨month, cs⟩, -, h⟩ := Except.bind_eq_ok.1 h
  obtain ⟨⟨_, cs⟩, -, h⟩ := Except.bind_eq_ok.1 h
  obtain ⟨⟨day, cs⟩, -, h⟩ := Except.bind_eq_ok.1 h
  dsimp only at h
  split at h
  · cases h
  split at h
  · obtain ⟨cs, -, h⟩ := Except.bind_eq_ok.1 h
    obtain ⟨⟨hour, cs⟩, -, h⟩ := Except.bind_eq_ok.1 h
    obtain ⟨⟨_, cs⟩, -, h⟩ := Except.bind_eq_ok.1 h
    obtain ⟨⟨minute, cs⟩, -, h⟩ := Except.bind_eq_ok.1 h
    obtain ⟨⟨_, cs⟩, -, h⟩ := Except.bind_eq_ok.1 h
    obtain ⟨⟨second, cs⟩, -, h⟩ := Except.bind_eq_ok.1 h
    obtain ⟨⟨nanos, cs⟩, hnanos, h⟩ := Except.bind_eq_ok.1 h
    obtain ⟨⟨offset, cs⟩, hoffset, h⟩ := Except.bind_eq_ok.1 h
    dsimp only at h
    split at h
    · cases h
    · exact valid_of_ofParts h (readFraction_lt hnanos) (readZone_minutes hoffset)
  · cases h

/-- **The valid timestamps are those that can be read.** -/
theorem valid_iff {t : Timestamp} : t.Valid ↔ ∃ text, read text = .ok t := by
  refine ⟨fun h => ⟨t.print, read_print h⟩, ?_⟩
  rintro ⟨text, h⟩
  exact valid_of_read h

end Rulebook.Timestamp
