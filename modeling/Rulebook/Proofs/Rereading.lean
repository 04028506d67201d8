import Rulebook.Proofs.DocumentText
import Rulebook.Proofs.Documents

/-!
# Numbers that are read back

A number that is written and read again is the same one if it is an integer, and otherwise only if
reading rounds as it should. It does for the numbers that a rule is likely to have: if the digits
that are shown and the power of ten behind them are numbers themselves, then the one product or
quotient of the two is rounded once, to the number that the digits were chosen for
(`Number.readsBack_of_short`). Beyond these a number may come back as one of its neighbours. The
numbers of a tree are those of its conditions, so a tree is read back exactly if the literal of
each condition is (`Tree.readsBack_iff`), and it is if all of them are texts or short numbers
(`Tree.readsBack_of_short`).
-/

namespace Rulebook

/-! ## Exact steps -/

/-- A whole number below `2 ^ 53` is its own rounding. -/
theorem Magnitude.ofNat?_of_lt {n : Nat} (h : n < Nat.pow 2 53) :
    ∃ m, ofNat? n = some m ∧ m.units = n * unitsInOne := by
  obtain ⟨m, hm⟩ := exists_units h
  refine ⟨m, ?_, hm⟩
  rw [ofNat?, ← hm]
  exact round_units m

namespace Decimal

/-- So far the powers of ten are numbers. -/
theorem power?_of_le {k : Nat} (h : k ≤ 22) :
    ∃ m, power? k = some m ∧ m.units = Nat.pow 10 k * Magnitude.unitsInOne := by
  have hall : ∀ k < 23, (power? k).map Magnitude.units =
      some (Nat.pow 10 k * Magnitude.unitsInOne) := by decide +kernel
  exact Option.map_eq_some_iff.1 (hall k (Nat.lt_succ_of_le h))

/-- Where the digits and the power of ten are numbers, a decimal is rounded once. -/
theorem reading?_of_small {d : Decimal} (h : d.Small) :
    d.reading? = Magnitude.round (d.numerator * Magnitude.unitsInOne) d.denominator := by
  obtain ⟨hdigits, hlow, hhigh⟩ := h
  obtain ⟨m, hm, hunits⟩ := Magnitude.ofNat?_of_lt hdigits
  have hpos := Magnitude.unitsInOne_pos
  have hmax : maxExponent = 308 := rfl
  rw [reading?, hm, Option.bind_eq_bind, Option.bind_some]
  by_cases hnonneg : 0 ≤ d.exponent
  · -- one product of two exact factors
    obtain ⟨p, hp, hpower⟩ := power?_of_le (k := d.exponent.toNat) (by omega)
    have hone : d.denominator = 1 := by
      rw [denominator, Int.toNat_of_nonpos (by omega), Nat.pow_eq, Nat.pow_zero]
    have hproduct : m.units * p.units =
        d.numerator * Magnitude.unitsInOne * Magnitude.unitsInOne := by
      rw [hunits, hpower, numerator, ← Nat.mul_assoc, Nat.mul_right_comm d.digits]
    have hraised : raised? m d.exponent.toNat = m.times? p := by
      rw [raised?, if_pos (by omega), hp, Option.bind_eq_bind, Option.bind_some]
    have hround := Magnitude.round_mul (d.numerator * Magnitude.unitsInOne) 1 hpos
    rw [Nat.one_mul] at hround
    rw [if_pos hnonneg, hraised, Magnitude.times?, hproduct, hround, hone]
  · -- one quotient, as no second power of ten is needed
    obtain ⟨p, hp, hpower⟩ := power?_of_le (k := (-d.exponent).toNat) (by omega)
    have hnumerator : d.numerator = d.digits := by
      rw [numerator, Int.toNat_of_nonpos (by omega)]
      exact Nat.mul_one d.digits
    have hlowered : lowered? m (-d.exponent).toNat = m.dividedBy? p := by
      rw [lowered?, if_pos (by omega), hp, Option.bind_eq_bind, Option.bind_some]
    have hquotient : m.units * Magnitude.unitsInOne =
        d.numerator * Magnitude.unitsInOne * Magnitude.unitsInOne := by
      rw [hunits, hnumerator]
    have hround := Magnitude.round_mul (d.numerator * Magnitude.unitsInOne) d.denominator hpos
    rw [if_neg hnonneg, hlowered, Magnitude.dividedBy?, hquotient, hpower]
    exact hround

end Decimal

/-! ## Numbers -/

namespace Number

/-- The number is read from its text as it was. -/
def ReadsBack (n : Number) : Prop := n.reread? = some n

theorem readsBack_int {n : Int} (h : (int n).InRange) : (int n).ReadsBack :=
  Source.reread?_eq (Source.readsTo_int h)

/-- A number that is no integer is read as one that is none, with its sign. -/
theorem exists_of_reread? {negative : Bool} {m : Magnitude} {n : Number}
    (h : (real (.finite negative m)).reread? = some n) : ∃ m', n = real (.finite negative m') := by
  obtain ⟨d, hreads, -⟩ := Source.readsTo_real negative m
  rw [Source.reread?_eq hreads] at h
  obtain ⟨m', -, rfl⟩ := Option.map_eq_some_iff.1 h
  exact ⟨m', rfl⟩

/-- **Short numbers are read back.** -/
theorem readsBack_of_short {negative : Bool} {m : Magnitude} (h : m.Short) :
    (real (.finite negative m)).ReadsBack := by
  obtain ⟨d, hreads, hshort⟩ := Source.readsTo_real negative m
  obtain ⟨hsmall, hsame⟩ := hshort h
  have hnearest : Binary64.ofDecimal false d = .finite false m := by
    rw [Binary64.ofDecimal_congr false hsame]
    exact Decimal.ofDecimal_shortest .toEven m
  rw [Binary64.ofDecimal_eq_ofRatio, Binary64.ofRatio_eq_finite_iff] at hnearest
  rw [ReadsBack, Source.reread?_eq hreads, Source.real, Decimal.reading?_of_small hsmall, hnearest]
  rfl

end Number

/-! ## Members -/

/-- Members keep their keys when their numbers are read again. -/
theorem Json.forall_keys_rereadMembers? {p : String → Prop}
    {members members' : List (String × Json)} (hreread : rereadMembers? members = some members')
    (h : ∀ m ∈ members, p m.1) : ∀ m ∈ members', p m.1 := by
  induction members generalizing members' with
  | nil =>
    cases hreread
    exact List.forall_mem_nil _
  | cons member rest ih =>
    obtain ⟨key, value⟩ := member
    obtain ⟨hkey, hrest⟩ := List.forall_mem_cons.1 h
    obtain ⟨value', -, hreread⟩ := Option.bind_eq_some_iff.1 hreread
    obtain ⟨rest', hrest', heq⟩ := Option.bind_eq_some_iff.1 hreread
    cases heq
    exact List.forall_mem_cons.2 ⟨hkey, ih hrest' hrest⟩

/-! ## Trees -/

namespace Literal

/-- The literal with its number read from its text again. -/
def reread? : Literal → Option Literal
  | .number x => (Number.real x).reread?.map fun n => .number n.toBinary64
  | .text s => some (.text s)

/-- The literal is read from its text as it was. -/
def ReadsBack (literal : Literal) : Prop := literal.reread? = some literal

theorem readsBack_text (s : String) : (text s).ReadsBack := rfl

theorem readsBack_number {x : Binary64} (h : x.isFinite) :
    (number x).ReadsBack ↔ (Number.real x).ReadsBack := by
  cases x with
  | finite negative m =>
    rw [ReadsBack, reread?, Number.ReadsBack, Option.map_eq_some_iff]
    refine ⟨?_, ?_⟩
    · rintro ⟨n, hn, heq⟩
      obtain ⟨m', rfl⟩ := Number.exists_of_reread? hn
      cases heq
      exact hn
    · intro hn
      exact ⟨_, hn, rfl⟩
  | infinite negative => cases h
  | nan => cases h

/-- A text, or a number that is short. -/
def Short : Literal → Prop
  | .number (.finite _ m) => m.Short
  | .number _ => False
  | .text _ => True

instance : (literal : Literal) → Decidable literal.Short
  | .number (.finite _ m) => inferInstanceAs (Decidable m.Short)
  | .number (.infinite _) => .isFalse id
  | .number .nan => .isFalse id
  | .text _ => .isTrue trivial

theorem Short.readsBack {literal : Literal} (h : literal.Short) : literal.ReadsBack := by
  cases literal with
  | text s => exact readsBack_text s
  | number x =>
    cases x with
    | finite negative m => exact (readsBack_number rfl).2 (Number.readsBack_of_short h)
    | infinite negative => cases h
    | nan => cases h

/-- What is read again is finite, and its document is that of the literal with its number read
again. -/
theorem reread_toJson {literal : Literal} (h : literal.isFinite) :
    literal.toJson.reread? = literal.reread?.map toJson ∧
      ∀ literal', literal.reread? = some literal' → literal'.isFinite := by
  cases literal with
  | text s => exact ⟨rfl, fun _ hs => Option.some.inj hs ▸ rfl⟩
  | number x =>
    cases x with
    | finite negative m =>
      have hjson : (number (.finite negative m)).toJson =
          .number (.real (.finite negative m)) := rfl
      rw [hjson, Json.reread?, reread?]
      cases hn : (Number.real (.finite negative m)).reread? with
      | none => exact ⟨rfl, fun _ hnone => absurd hnone (Option.some_ne_none _).symm⟩
      | some n =>
        obtain ⟨m', rfl⟩ := Number.exists_of_reread? hn
        exact ⟨rfl, fun _ hsome => Option.some.inj hsome ▸ rfl⟩
    | infinite negative => cases h
    | nan => cases h

end Literal

namespace Tree

/-- The tree with every number read from its text again, unless one of them is beyond the range
then. -/
def reread? : Tree → Option Tree
  | .leaf c => c.literal.reread?.map fun literal => .leaf { c with literal }
  | .join c left right => do
    let left ← left.reread?
    let right ← right.reread?
    return .join c left right

/-- The tree is read from its text as it was. -/
def ReadsBack (tree : Tree) : Prop := tree.reread? = some tree

instance (tree : Tree) : Decidable tree.ReadsBack := inferInstanceAs (Decidable (_ = _))

theorem readsBack_leaf {c : Condition} : (leaf c).ReadsBack ↔ c.literal.ReadsBack := by
  rw [ReadsBack, reread?, Literal.ReadsBack, Option.map_eq_some_iff]
  refine ⟨?_, ?_⟩
  · rintro ⟨literal, hliteral, heq⟩
    have hsame : literal = c.literal := congrArg Condition.literal (Tree.leaf.inj heq)
    rwa [hsame] at hliteral
  · intro hliteral
    exact ⟨_, hliteral, rfl⟩

theorem readsBack_join {c : Connective} {left right : Tree} :
    (join c left right).ReadsBack ↔ left.ReadsBack ∧ right.ReadsBack := by
  rw [ReadsBack, reread?, ReadsBack, ReadsBack, Option.bind_eq_bind, Option.bind_eq_some_iff]
  refine ⟨?_, ?_⟩
  · rintro ⟨l, hl, h⟩
    obtain ⟨r, hr, heq⟩ := Option.bind_eq_some_iff.1 h
    cases heq
    exact ⟨hl, hr⟩
  · rintro ⟨hl, hr⟩
    exact ⟨left, hl, Option.bind_eq_some_iff.2 ⟨right, hr, rfl⟩⟩

/-- A tree is read back exactly if the literal of each condition is. -/
theorem readsBack_iff {tree : Tree} :
    tree.ReadsBack ↔ ∀ c ∈ tree.conditions, c.literal.ReadsBack := by
  induction tree with
  | leaf c => rw [readsBack_leaf, conditions, List.forall_mem_singleton]
  | join c left right ihl ihr =>
    rw [readsBack_join, conditions, List.forall_mem_append, ihl, ihr]

/-- **A rule of texts and short numbers is read back.** -/
theorem readsBack_of_short {tree : Tree} (h : ∀ c ∈ tree.conditions, c.literal.Short) :
    tree.ReadsBack :=
  readsBack_iff.2 fun c hc => (h c hc).readsBack

/-- What is read again is finite, and its document is that of the tree with its numbers read
again. -/
theorem reread_document {tree : Tree} (h : tree.isFinite) :
    tree.document.reread? = tree.reread?.map document ∧
      ∀ tree', tree.reread? = some tree' → tree'.isFinite := by
  induction tree with
  | leaf c =>
    obtain ⟨hjson, hfinite⟩ := @Literal.reread_toJson c.literal h
    simp only [document, reread?, Json.reread?, Json.rereadMembers?, hjson]
    cases hliteral : c.literal.reread? with
    | none => exact ⟨rfl, fun _ hnone => absurd hnone (Option.some_ne_none _).symm⟩
    | some literal =>
      refine ⟨rfl, fun tree' htree => ?_⟩
      cases htree
      exact hfinite literal hliteral
  | join c left right ihl ihr =>
    rw [isFinite, Bool.and_eq_true] at h
    obtain ⟨hleft, hleftFinite⟩ := ihl h.1
    obtain ⟨hright, hrightFinite⟩ := ihr h.2
    simp only [document, reread?, Json.reread?, Json.rereadMembers?, hleft, hright]
    cases hl : left.reread? with
    | none => exact ⟨rfl, fun _ hnone => absurd hnone (Option.some_ne_none _).symm⟩
    | some l =>
      cases hr : right.reread? with
      | none => exact ⟨rfl, fun _ hnone => absurd hnone (Option.some_ne_none _).symm⟩
      | some r =>
        refine ⟨rfl, fun tree' htree => ?_⟩
        cases htree
        rw [isFinite, hleftFinite l hl, hrightFinite r hr]
        rfl

end Tree

end Rulebook
