import Rulebook.Proofs.ByteOrder
import Rulebook.Proofs.Dependence
import Rulebook.Proofs.Numbers

/-!
# One comparison of three

Whether a value equals a literal and which of the two is larger are found separately, and still they
are the three answers to one question: each comparison asks for one way in which the value and the
literal stand to each other (`Comparison.holds_iff`). A number and a number stand in exactly one of
the three ways, a text and a text as well, and values and literals of different kinds stand in none.
Texts stand to each other as their characters do, and so do the bytes that write them.
-/

namespace Rulebook

open Text (scalars bytes)

/-- Whether a value and a literal are both numbers or both texts. -/
def Json.sameKind : Json → Literal → Bool
  | .number _, .number _ => true
  | .text _, .text _ => true
  | _, _ => false

namespace Comparison

/-- The order that a comparison asks for. -/
def ordering : Comparison → Ordering
  | .greater => .gt
  | .less => .lt
  | .equal => .eq

theorem ordering_inj {c d : Comparison} (h : c.ordering = d.ordering) : c = d := by
  cases c <;> cases d <;> first | rfl | cases h

theorem exists_ordering (o : Ordering) : ∃ c : Comparison, c.ordering = o := by
  cases o with
  | lt => exact ⟨.less, rfl⟩
  | eq => exact ⟨.equal, rfl⟩
  | gt => exact ⟨.greater, rfl⟩

/-- A comparison holds where the value and the literal have the order that it asks for. -/
theorem holds_iff {c : Comparison} {value : Json} {literal : Literal} :
    c.holds value literal = true ↔ value.order? literal = some c.ordering := by
  cases c with
  | greater | less => exact beq_iff_eq
  | equal => rw [holds, Json.equals_eq_order?, ordering, beq_iff_eq]

end Comparison

/-- Numbers have an order unless one of them is not a number. -/
theorem Binary64.exists_compare? {x y : Binary64} (hx : x ≠ .nan) (hy : y ≠ .nan) :
    ∃ o, x.compare? y = some o := by
  cases x with
  | nan => exact absurd rfl hx
  | finite s m =>
    cases y with
    | nan => exact absurd rfl hy
    | finite t n => exact ⟨_, rfl⟩
    | infinite t => exact ⟨_, rfl⟩
  | infinite s =>
    cases y with
    | nan => exact absurd rfl hy
    | finite t n => exact ⟨_, rfl⟩
    | infinite t => exact ⟨_, rfl⟩

theorem Binary64.ne_nan_of_isFinite {x : Binary64} (h : x.isFinite) : x ≠ .nan := by
  rintro rfl
  cases h

namespace Json

variable {value : Json} {literal : Literal}

/-- A number and a number, or a text and a text, have an order. -/
theorem exists_order? (hvalue : value.InRange) (hliteral : literal.isFinite)
    (hkind : value.sameKind literal) : ∃ o, value.order? literal = some o := by
  cases value with
  | null | bool _ | list _ | object _ => cases hkind
  | number n =>
    cases literal with
    | text t => cases hkind
    | number x =>
      have hn : n.InRange := hvalue n (List.mem_singleton_self _)
      exact Binary64.exists_compare? (Binary64.ne_nan_of_isFinite hn.isFinite)
        (Binary64.ne_nan_of_isFinite hliteral)
  | text s =>
    cases literal with
    | number x => cases hkind
    | text t => exact ⟨_, rfl⟩

/-- Nothing else has an order. -/
theorem order?_of_not_sameKind (hkind : ¬value.sameKind literal) : value.order? literal = none := by
  cases value with
  | null | bool _ | list _ | object _ => rfl
  | number n =>
    cases literal with
    | number x => exact absurd rfl hkind
    | text t => rfl
  | text s =>
    cases literal with
    | number x => rfl
    | text t => exact absurd rfl hkind

end Json

namespace Comparison

variable {r s t : String}

/-- A text is less than another where their characters say so. -/
theorem less_text_iff : less.holds (.text s) (.text t) = true ↔ s < t := by
  rw [holds_iff, Json.order?, ordering, Option.some.injEq]
  exact compareOfLessAndEq_eq_lt

/-- A text is greater than another where that one is less. -/
theorem greater_text_iff : greater.holds (.text s) (.text t) = true ↔ t < s := by
  rw [holds_iff, Json.order?, ordering, Option.some.injEq, Std.OrientedCmp.gt_iff_lt]
  exact compareOfLessAndEq_eq_lt

theorem equal_text_iff : equal.holds (.text s) (.text t) = true ↔ s = t := beq_iff_eq

/-- What stands in one order to a text, and that text to a third one, stands in it to the third. -/
theorem holds_text_trans {c : Comparison} (hrs : c.holds (.text r) (.text s) = true)
    (hst : c.holds (.text s) (.text t) = true) : c.holds (.text r) (.text t) = true := by
  rw [holds_iff, Json.order?, Option.some.injEq] at hrs hst ⊢
  cases c with
  | greater => exact Std.TransCmp.gt_trans hrs hst
  | less => exact Std.TransCmp.lt_trans hrs hst
  | equal => exact Std.TransCmp.eq_trans hrs hst

end Comparison

/-- **Exactly one comparison holds.** Of a value and a literal that are both numbers, finite as in
all documents and rules, or both texts, exactly one of greater, less and equal holds; of any others
none does. Between texts, less is the order of the numbers of their characters, the first difference
deciding, which is the order of their bytes as well, greater is the same the other way round, and
equal means to be one text: so each of the three goes on from text to text, and a text that is equal
to another can stand in its place on either side. -/
theorem exactly_one_comparison_holds :
    (∀ (value : Json) (literal : Literal), value.InRange → literal.isFinite →
      value.sameKind literal → ∃ c : Comparison, c.holds value literal = true ∧
        ∀ d : Comparison, d.holds value literal = true → d = c) ∧
    (∀ (value : Json) (literal : Literal), ¬value.sameKind literal →
      ∀ c : Comparison, c.holds value literal = false) ∧
    (∀ s t : String,
      (Comparison.less.holds (.text s) (.text t) = true ↔ scalars s < scalars t) ∧
      (Comparison.greater.holds (.text s) (.text t) = true ↔ scalars t < scalars s) ∧
      (Comparison.equal.holds (.text s) (.text t) = true ↔ s = t) ∧
      (bytes s < bytes t ↔ scalars s < scalars t)) ∧
    (∀ (c : Comparison) (r s t : String), c.holds (.text r) (.text s) = true →
      c.holds (.text s) (.text t) = true → c.holds (.text r) (.text t) = true) ∧
    ∀ (c : Comparison) (r s t : String), Comparison.equal.holds (.text r) (.text s) = true →
      c.holds (.text r) (.text t) = c.holds (.text s) (.text t) ∧
      c.holds (.text t) (.text r) = c.holds (.text t) (.text s) := by
  refine ⟨?_, ?_, fun s t => ⟨?_, ?_, Comparison.equal_text_iff, ?_⟩,
    fun c r s t => Comparison.holds_text_trans, ?_⟩
  · intro value literal hvalue hliteral hkind
    obtain ⟨o, ho⟩ := Json.exists_order? hvalue hliteral hkind
    obtain ⟨c, rfl⟩ := Comparison.exists_ordering o
    refine ⟨c, Comparison.holds_iff.2 ho, fun d hd => ?_⟩
    have hsame : d.ordering = c.ordering :=
      Option.some.inj ((Comparison.holds_iff.1 hd).symm.trans ho)
    exact Comparison.ordering_inj hsame
  · intro value literal hkind c
    rw [← Bool.not_eq_true, Comparison.holds_iff, Json.order?_of_not_sameKind hkind]
    exact fun h => nomatch h
  · rw [Comparison.less_text_iff, Text.scalars_lt_iff]
  · rw [Comparison.greater_text_iff, Text.scalars_lt_iff]
  · rw [Text.bytes_lt_iff, Text.scalars_lt_iff]
  · intro c r s t hequal
    obtain rfl := Comparison.equal_text_iff.1 hequal
    exact ⟨rfl, rfl⟩

/-- An integer that is no binary64 number equals its neighbour below, and so it is not greater; a
text of digits stands in no order to a number; and a character of four bytes comes after one of
three, which in units of sixteen bits it would not. -/
theorem exactly_one_comparison_holds_edges :
    (Json.number (.int 9007199254740993)).InRange ∧
    (Literal.number (.ofInt 9007199254740992)).isFinite ∧
    (Json.number (.int 9007199254740993)).sameKind (.number (.ofInt 9007199254740992)) ∧
    Comparison.equal.holds (.number (.int 9007199254740993))
      (.number (.ofInt 9007199254740992)) = true ∧
    Comparison.greater.holds (.number (.int 9007199254740993))
      (.number (.ofInt 9007199254740992)) ≠ true ∧
    Comparison.equal.holds (.text "1") (.number (.ofInt 1)) = false ∧
    Comparison.less.holds (.text "￮") (.text "🦀") = true ∧ bytes "￮" < bytes "🦀" := by
  obtain ⟨hone, hnone, htext, -, -⟩ := exactly_one_comparison_holds
  have hrange : (Json.number (.int 9007199254740993)).InRange := by
    intro n hn
    cases List.mem_singleton.1 hn
    exact ⟨by decide, by decide⟩
  have hsize : (9007199254740992 : Int).natAbs.log2 ≤ 1022 := by decide +kernel
  have hfinite : (Literal.number (.ofInt 9007199254740992)).isFinite := by
    rw [Literal.isFinite]
    exact Binary64.isFinite_ofInt hsize
  have hequal : Comparison.equal.holds (.number (.int 9007199254740993))
      (.number (.ofInt 9007199254740992)) = true := by decide +kernel
  obtain ⟨c, -, hc⟩ := hone _ _ hrange hfinite rfl
  obtain ⟨hless, -, -, hbytes⟩ := htext "￮" "🦀"
  have hscalars : scalars "￮" < scalars "🦀" := by decide +kernel
  refine ⟨hrange, hfinite, rfl, hequal, fun hgreater => ?_,
    hnone (.text "1") (.number (.ofInt 1)) Bool.false_ne_true .equal, hless.2 hscalars,
    hbytes.2 hscalars⟩
  cases (hc _ hgreater).trans (hc _ hequal).symm

end Rulebook
