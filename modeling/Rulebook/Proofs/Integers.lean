import Rulebook.Evaluation.Outcome
import Rulebook.Proofs.Display
import Rulebook.Proofs.FirstConnective
import Rulebook.Proofs.Nearest
import Rulebook.Proofs.Numbers

/-!
# Comparing integers

A condition on an integer compares binary64 numbers. The integer of the record becomes the nearest
one when it is compared, and the one in the rule becomes the nearest one when it is read. Since
rounding keeps the order, a comparison can only go wrong by taking two different integers for equal.
The integers below `2 ^ 53` are kept as they are and no other integer is taken for one of them, and
any two that are taken for each other are close (`Proofs.Nearest`).
-/

namespace Rulebook

open Parsing

/-! ## Rules of one clause -/

/-- A bare word is the only word of itself. -/
theorem Text.words_of_bare {word : String} (h : Bare word) : words word = [word] := by
  have hne : word.toList.isEmpty = false := List.isEmpty_eq_false_iff.2 h.ne_nil
  rw [words, List.splitOnP_eq_singleton h.unbroken, List.filter_cons_of_pos (by rw [hne]; rfl),
    List.filter_nil, List.map_singleton, String.ofList_toList]

/-- Both ways of reading give the condition of a clause. -/
theorem Parser.parse_clause {p : Parser} (hdepth : 1 ≤ p.maxDepth) {field word : String}
    (comparison : Comparison) (hfield : Bare field) (hword : Bare word) :
    p.parse (field ++ " " ++ comparison.sign ++ " " ++ word) =
      .ok (.leaf ⟨field, comparison, .ofWord word⟩) := by
  obtain ⟨mode, limit⟩ := p
  cases mode with
  | firstMatch =>
    refine parse_firstMatch_eq_ok_iff_climbs.2
      ⟨[], ⟨field, comparison, .ofWord word⟩, hdepth, ?_, rfl⟩
    rw [Text.words_blank, Text.words_blank, Text.words_of_bare hfield,
      Text.words_of_bare (bare_sign comparison), Text.words_of_bare hword]
    exact .last comparison hfield.no_connective hword.no_connective
  | precedence =>
    have htokens : Token.ofRule (field ++ " " ++ comparison.sign ++ " " ++ word) =
        [.word field, .word comparison.sign, .word word] := by
      rw [Token.ofRule_blank, Token.ofRule_blank, Token.ofRule_of_bare hfield,
        Token.ofRule_of_bare (bare_sign comparison), Token.ofRule_of_bare hword]
      rfl
    rw [parse_precedence_eq_ok, htokens]
    exact ⟨hdepth, .conjunction (.part (.clause field comparison word))⟩

/-! ## Integers in rules -/

/-- Digits alone are read as the number nearest to the whole number that they write. -/
theorem Binary64.readUnsigned?_digits (negative : Bool) {digits : List Char} (hne : digits ≠ [])
    (hdigits : ∀ c ∈ digits, Decimal.isDigit c) :
    readUnsigned? negative digits = some (ofRatio negative (Decimal.ofDigits digits) 1) := by
  have hnumerator : (Decimal.mk (Decimal.ofDigits digits) 0).numerator = Decimal.ofDigits digits :=
    Nat.mul_one _
  rw [readUnsigned?, Decimal.readDecimal?_digits hdigits hne]
  dsimp only
  rw [ofDecimal_eq_ofRatio, hnumerator]
  rfl

/-- The word writes the integer: digits, behind a minus sign if there is one. -/
inductive WritesInteger : String → Int → Prop where
  | plain {digits : List Char} : digits ≠ [] → (∀ c ∈ digits, Decimal.isDigit c) →
      WritesInteger (String.ofList digits) (Decimal.ofDigits digits)
  | minus {digits : List Char} : digits ≠ [] → (∀ c ∈ digits, Decimal.isDigit c) →
      WritesInteger ("-" ++ String.ofList digits) (-(Decimal.ofDigits digits : Int))

namespace WritesInteger

variable {word : String} {k : Int}

theorem bare (h : WritesInteger word k) : Bare word := by
  cases h with
  | plain hne hdigits =>
    refine bare_of_numeral (by simpa using hne) fun c hc => .inl (hdigits c ?_)
    simpa using hc
  | @minus digits hne hdigits =>
    refine bare_of_numeral (by simp) fun c hc => ?_
    have hmem : c = '-' ∨ c ∈ digits := by simpa using hc
    obtain rfl | hmem := hmem
    · exact .inr (.inr rfl)
    · exact .inl (hdigits c hmem)

/-- The literal of such a word is the finite number at the place of the integer. -/
theorem ofWord (h : WritesInteger word k) (hlog : k.natAbs.log2 ≤ 1022) :
    ∃ negative m, Literal.ofWord word = .number (.finite negative m) ∧
      Binary64.position negative m = Binary64.place k := by
  cases h with
  | @plain digits hne hdigits =>
    rw [Int.natAbs_natCast] at hlog
    obtain ⟨m, hm, hplace⟩ := Binary64.exists_ofRatio false hlog
    refine ⟨false, m, ?_, hplace⟩
    rw [Literal.ofWord, (Binary64.read?_of_unsigned fun c hc => .inl (hdigits c hc)).1,
      Binary64.readUnsigned?_digits false hne hdigits, hm]
    rfl
  | @minus digits hne hdigits =>
    rw [Int.natAbs_neg, Int.natAbs_natCast] at hlog
    obtain ⟨m, hm, hplace⟩ := Binary64.exists_ofRatio true hlog
    refine ⟨true, m, ?_, hplace⟩
    rw [Literal.ofWord, (Binary64.read?_of_unsigned fun c hc => .inl (hdigits c hc)).2,
      Binary64.readUnsigned?_digits true hne hdigits, hm]
    rfl

end WritesInteger

/-! ## Comparing -/

/-- What a comparison says of integers. -/
def Comparison.relates : Comparison → Int → Int → Prop
  | .greater, n, k => k < n
  | .less, n, k => n < k
  | .equal, n, k => n = k

instance (comparison : Comparison) (n k : Int) : Decidable (comparison.relates n k) :=
  match comparison with
  | .greater => inferInstanceAs (Decidable (k < n))
  | .less => inferInstanceAs (Decidable (n < k))
  | .equal => inferInstanceAs (Decidable (n = k))

namespace Binary64

variable {n k : Int}

/-- Numbers nearest to integers are the same if they are found at one place. -/
theorem same_ofInt_iff (hn : n.natAbs.log2 ≤ 1022) (hk : k.natAbs.log2 ≤ 1022) :
    (ofInt n).same (ofInt k) ↔ place n = place k := by
  obtain ⟨m, hm, hplace⟩ := exists_ofInt hn
  obtain ⟨m', hm', hplace'⟩ := exists_ofInt hk
  rw [hm, hm', same, compare?, hplace, hplace', beq_iff_eq, Option.some.injEq,
    Std.compare_eq_iff_eq]

/-- An integer that is a number itself has its place where it is. -/
theorem place_of_integer? (hn : n.natAbs.log2 ≤ 1022) (h : (ofInt n).integer? = some n) :
    place n = n * (Magnitude.unitsInOne : Int) := by
  obtain ⟨m, hm, -⟩ := exists_ofInt hn
  rw [hm] at h
  exact place_of_units (integer?_eq_some h).1.symm

/-- Integers that are numbers themselves, and those of which one is below `2 ^ 53` in size, are not
found at one place unless they are one integer. -/
theorem place_eq_iff (hn : n.natAbs.log2 ≤ 1022) (hk : k.natAbs.log2 ≤ 1022)
    (h : (ofInt n).integer? = some n ∧ (ofInt k).integer? = some k ∨
      n.natAbs < Nat.pow 2 53 ∨ k.natAbs < Nat.pow 2 53) :
    place n = place k ↔ n = k := by
  refine ⟨fun heq => Decidable.byContradiction fun hne => ?_, congrArg place⟩
  obtain ⟨hnumber, hnumber'⟩ | hsmall | hsmall := h
  · have hunits : (Magnitude.unitsInOne : Int) ≠ 0 :=
      Int.natCast_ne_zero.2 (Nat.ne_of_gt Magnitude.unitsInOne_pos)
    rw [place_of_integer? hn hnumber, place_of_integer? hk hnumber'] at heq
    exact hne (Int.eq_of_mul_eq_mul_right hunits heq)
  · exact place_ne hsmall (Ne.symm hne) heq.symm
  · exact place_ne hsmall hne heq

end Binary64

namespace Comparison

variable {n k : Int}

/-- A number of the record is compared with one of the rule by their places. -/
theorem holds_iff_relates_place (comparison : Comparison) (hn : n.natAbs.log2 ≤ 1022)
    {negative : Bool} {m : Magnitude} (hplace : Binary64.position negative m = Binary64.place k) :
    comparison.holds (.number (.int n)) (.number (.finite negative m)) ↔
      comparison.relates (Binary64.place n) (Binary64.place k) := by
  obtain ⟨m', hm', hplace'⟩ := Binary64.exists_ofInt hn
  have hcompare : (Number.int n).toBinary64.compare? (.finite negative m) =
      some (compare (Binary64.place n) (Binary64.place k)) := by
    rw [Number.toBinary64, hm', Binary64.compare?, hplace', hplace]
  cases comparison with
  | greater =>
    rw [holds, Json.order?, hcompare, beq_iff_eq, Option.some.injEq]
    exact Int.compare_eq_gt
  | less =>
    rw [holds, Json.order?, hcompare, beq_iff_eq, Option.some.injEq]
    exact Int.compare_eq_lt
  | equal =>
    rw [holds, Json.equals, Binary64.same, hcompare, beq_iff_eq, Option.some.injEq]
    exact Std.compare_eq_iff_eq

theorem relates_self (comparison : Comparison) : comparison.relates n n ↔ comparison = .equal := by
  cases comparison with
  | greater | less => exact iff_of_false (Int.lt_irrefl _) nofun
  | equal => exact iff_of_true rfl rfl

/-- Places are related as the integers are, unless they are one place. -/
theorem relates_place_iff (comparison : Comparison) :
    comparison.relates (Binary64.place n) (Binary64.place k) ↔
      if Binary64.place n = Binary64.place k then comparison = .equal
      else comparison.relates n k := by
  split
  · next heq =>
    rw [heq]
    exact comparison.relates_self
  · next hne =>
    cases comparison with
    | greater =>
      refine ⟨fun hlt => Int.not_le.1 fun hle => Int.not_le.2 hlt (Binary64.place_mono hle), ?_⟩
      exact fun hlt => Int.lt_iff_le_and_ne.2 ⟨Binary64.place_mono (Int.le_of_lt hlt), Ne.symm hne⟩
    | less =>
      refine ⟨fun hlt => Int.not_le.1 fun hle => Int.not_le.2 hlt (Binary64.place_mono hle), ?_⟩
      exact fun hlt => Int.lt_iff_le_and_ne.2 ⟨Binary64.place_mono (Int.le_of_lt hlt), hne⟩
    | equal => exact iff_of_false hne fun heq => hne (congrArg Binary64.place heq)

end Comparison

/-- A tree of one condition, on an attribute that is there, matches if the condition holds. -/
theorem Tree.evaluate_leaf (condition : Condition) {record value : Json}
    (h : Lookup.field? record condition.field = some value) (traced : Bool) :
    ∃ outcome, (leaf condition).evaluate traced record = .ok outcome ∧
      outcome.matched = condition.comparison.holds value condition.literal := by
  rw [evaluate, evaluateAt, h]
  exact ⟨_, rfl, rfl⟩

/-- **Integers are compared as the numbers nearest to them.** A rule of one clause that compares an
attribute with an integer is read, in both ways of reading and under any limit that admits a single
leaf, and evaluated on a record with an integer there. If the two integers have the same nearest
number they count as equal; if not, they are compared as integers. So the comparison is exact
whenever both are binary64 numbers themselves, and whenever one of them is below `2 ^ 53` in size,
whatever the other is. Integers that are taken for equal are no further apart than a part in
`2 ^ 53` of both together. -/
theorem evaluate_integer_condition {p : Parser} (hdepth : 1 ≤ p.maxDepth) {field word : String}
    (hfield : Bare field) (comparison : Comparison) {n k : Int} (hword : WritesInteger word k)
    (hk : (Number.int k).InRange) (hn : (Number.int n).InRange) {record : Json}
    (hrecord : Lookup.field? record field = some (.number (.int n))) (traced : Bool) :
    ∃ tree outcome,
      p.parse (field ++ " " ++ comparison.sign ++ " " ++ word) = .ok tree ∧
      tree.evaluate traced record = .ok outcome ∧
      (outcome.matched ↔ if (Binary64.ofInt n).same (Binary64.ofInt k) then comparison = .equal
        else comparison.relates n k) ∧
      ((Binary64.ofInt n).integer? = some n ∧ (Binary64.ofInt k).integer? = some k ∨
          n.natAbs < Nat.pow 2 53 ∨ k.natAbs < Nat.pow 2 53 →
        (outcome.matched ↔ comparison.relates n k)) ∧
      ((Binary64.ofInt n).same (Binary64.ofInt k) →
        Nat.pow 2 53 * (n - k).natAbs ≤ n.natAbs + k.natAbs) := by
  obtain ⟨negative, m, hliteral, hplace⟩ := hword.ofWord hk.log2_le
  have hparse := p.parse_clause hdepth comparison hfield hword.bare
  rw [hliteral] at hparse
  obtain ⟨outcome, heval, hmatched⟩ :=
    Tree.evaluate_leaf ⟨field, comparison, .number (.finite negative m)⟩ hrecord traced
  have hplaces : outcome.matched ↔
      if Binary64.place n = Binary64.place k then comparison = .equal
      else comparison.relates n k := by
    rw [hmatched, comparison.holds_iff_relates_place hn.log2_le hplace]
    exact comparison.relates_place_iff
  have hsame := Binary64.same_ofInt_iff hn.log2_le hk.log2_le
  refine ⟨_, outcome, hparse, heval, ?_, ?_, ?_⟩
  · rw [hplaces]
    simp only [hsame]
  · intro hexact
    have hequal := Binary64.place_eq_iff hn.log2_le hk.log2_le hexact
    rw [hplaces]
    split
    · next heq =>
      rw [hequal.1 heq]
      exact comparison.relates_self.symm
    · rfl
  · intro h
    exact Binary64.near_of_place_eq (hsame.1 h)

/-- The number in the rule is not kept as it is, and the comparison is exact all the same. -/
theorem evaluate_integer_condition_negative :
    1 ≤ (⟨.precedence, 1⟩ : Parser).maxDepth ∧ Bare "x" ∧
    WritesInteger "-9007199254740993" (-9007199254740993) ∧
    (Number.int (-9007199254740993)).InRange ∧ (Number.int (-5)).InRange ∧
    Lookup.field? (.object [("x", .number (.int (-5)))]) "x" = some (.number (.int (-5))) ∧
    ∃ tree outcome, (⟨.precedence, 1⟩ : Parser).parse "x > -9007199254740993" = .ok tree ∧
      tree.evaluate false (.object [("x", .number (.int (-5)))]) = .ok outcome ∧
      outcome.matched := by
  have hfield : Bare "x" :=
    bare_of_ends (show "x".toList.head? = some 'x' from rfl)
      (show "x".toList.getLast? = some 'x' from rfl) (List.forall_mem_singleton.2 rfl) (by decide)
  have hword : WritesInteger "-9007199254740993" (-9007199254740993) :=
    WritesInteger.minus (show "9007199254740993".toList ≠ [] by decide)
      (List.all_eq_true.1 rfl)
  have hk : (Number.int (-9007199254740993)).InRange := ⟨by decide, by decide⟩
  have hn : (Number.int (-5)).InRange := ⟨by decide, by decide⟩
  have hrecord : Lookup.field? (.object [("x", .number (.int (-5)))]) "x" =
      some (.number (.int (-5))) := rfl
  obtain ⟨tree, outcome, hparse, heval, -, hexact, -⟩ :=
    evaluate_integer_condition (p := ⟨.precedence, 1⟩) (Nat.le_refl 1) hfield .greater hword hk hn
      hrecord false
  refine ⟨Nat.le_refl 1, hfield, hword, hk, hn, hrecord, tree, outcome, hparse, heval, ?_⟩
  exact (hexact (.inr (.inl (by decide)))).2 (by decide)

/-- The first integers that are taken for equal. -/
theorem evaluate_integers_taken_for_equal :
    (⟨.precedence, 1⟩ : Parser).parse "x = 9007199254740992" =
        .ok (.leaf ⟨"x", .equal, .ofWord "9007199254740992"⟩) ∧
      (∃ outcome, (Tree.leaf ⟨"x", .equal, .ofWord "9007199254740992"⟩).evaluate false
          (.object [("x", .number (.int 9007199254740993))]) = .ok outcome ∧ outcome.matched) ∧
      ¬Comparison.equal.relates 9007199254740993 9007199254740992 := by
  have hrecord : Lookup.field? (.object [("x", .number (.int 9007199254740993))]) "x" =
      some (.number (.int 9007199254740993)) := rfl
  obtain ⟨outcome, heval, hmatched⟩ :=
    Tree.evaluate_leaf ⟨"x", .equal, .ofWord "9007199254740992"⟩ hrecord false
  refine ⟨rfl, ⟨outcome, heval, ?_⟩, by decide⟩
  rw [hmatched]
  decide +kernel

end Rulebook
