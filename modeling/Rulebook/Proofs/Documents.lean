import Rulebook.Proofs.Combination
import Rulebook.Proofs.Encoding
import Rulebook.Proofs.Numbers
import Rulebook.Rule.Document

/-!
# Trees as documents

The document of a tree encodes that tree and no other, and the depth that is measured on it before
it is loaded is the depth of the tree. So a tree with finite numbers comes back from its document
unchanged whenever the limit admits its depth. Every tree that is read, combined or loaded has
finite numbers only (`Parser.parse_within`, `Combiner.combine_within`, `Tree.isFinite_of_encodes`).
-/

namespace Rulebook

/-! ## Documents in range -/

theorem Json.InRange.item {items : List Json} {value : Json} (h : (Json.list items).InRange)
    (hmem : value ∈ items) : value.InRange :=
  inRange_list.1 h value hmem

theorem Json.InRange.member {members : List (String × Json)} {name : String} {value : Json}
    (h : (Json.object members).InRange) (hvalue : valuesOf name members = [value]) :
    value.InRange :=
  inRange_object.1 h (name, value) (mem_of_valuesOf hvalue)

/-- A literal read from a document in range is finite. -/
theorem Literal.isFinite_ofJson {value : Json} {literal : Literal} (hrange : value.InRange)
    (h : Literal.ofJson value = .ok literal) : literal.isFinite := by
  cases value with
  | number n =>
    cases h
    exact (hrange n (List.mem_cons_self ..)).isFinite
  | text s =>
    cases h
    rfl
  | _ => cases h

/-! ## Trees with written operators -/

namespace Tree

/-- The tree with its operators as they are written. -/
def raw : Tree → RawTree
  | .leaf c => .operand c.field c.comparison.sign c.literal
  | .join c left right => .operator c.word left.raw right.raw

end Tree

theorem Comparison.resolve_eq_ok {word : String} {c : Comparison} :
    Comparison.resolve word = .ok c ↔ word = c.sign := by
  rw [Comparison.resolve]
  refine ⟨?_, ?_⟩
  · intro h
    split at h
    · next found hword =>
      cases h
      exact (Comparison.sign_of_ofWord? hword).symm
    · cases h
  · rintro rfl
    rw [Comparison.ofWord?_sign]

theorem Connective.resolve_eq_ok {word : String} {c : Connective} :
    Connective.resolve word = .ok c ↔ word = c.word := by
  rw [Connective.resolve]
  refine ⟨?_, ?_⟩
  · intro h
    split at h
    · next found hword =>
      cases h
      exact (Connective.word_of_ofWord? hword).symm
    · cases h
  · rintro rfl
    rw [Connective.ofWord?_word]

/-- The operators are looked up successfully exactly if they are those of a tree. -/
theorem RawTree.resolve_eq_ok {raw : RawTree} {tree : Tree} :
    raw.resolve = .ok tree ↔ raw = tree.raw := by
  induction raw generalizing tree with
  | operand field sign literal =>
    rw [RawTree.resolve, Except.bind_eq_ok]
    refine ⟨?_, ?_⟩
    · rintro ⟨c, hc, h⟩
      cases h
      rw [Comparison.resolve_eq_ok.1 hc]
      rfl
    · intro h
      cases tree with
      | leaf c =>
        cases h
        exact ⟨c.comparison, Comparison.resolve_eq_ok.2 rfl, rfl⟩
      | join => cases h
  | operator word left right ihl ihr =>
    rw [RawTree.resolve, Except.bind_eq_ok]
    refine ⟨?_, ?_⟩
    · rintro ⟨c, hc, h⟩
      obtain ⟨l, hl, h⟩ := Except.bind_eq_ok.1 h
      obtain ⟨r, hr, h⟩ := Except.bind_eq_ok.1 h
      cases h
      rw [Connective.resolve_eq_ok.1 hc, ihl.1 hl, ihr.1 hr]
      rfl
    · intro h
      cases tree with
      | leaf => cases h
      | join c l r =>
        cases h
        refine ⟨c, Connective.resolve_eq_ok.2 rfl, ?_⟩
        rw [ihl.2 rfl, ihr.2 rfl]
        rfl

namespace Tree

/-- Loading succeeds exactly for the documents that encode a tree and measure no more than the
limit. -/
theorem load_eq_ok {limit : Nat} {value : Json} {tree : Tree} :
    load limit value = .ok tree ↔
      value.sideDepth ≤ limit ∧ RawTree.Encodes false value tree.raw := by
  rw [load]
  split
  · next hlt =>
    refine ⟨?_, ?_⟩
    · intro h
      cases h
    · rintro ⟨hle, -⟩
      omega
  · next hlt =>
    cases hload : RawTree.load false value with
    | error fault =>
      refine ⟨?_, ?_⟩
      · intro h
        cases h
      · rintro ⟨-, h⟩
        rw [h.load] at hload
        cases hload
    | ok raw =>
      refine ⟨?_, ?_⟩
      · intro h
        rw [← RawTree.resolve_eq_ok.1 h]
        exact ⟨by omega, RawTree.encodes_of_load hload⟩
      · rintro ⟨-, h⟩
        rw [h.load] at hload
        cases hload
        exact RawTree.resolve_eq_ok.2 rfl

/-- A tree loaded from a document in range has finite numbers only. -/
theorem isFinite_of_encodes {nested : Bool} {value : Json} {tree : Tree} (hrange : value.InRange)
    (h : RawTree.Encodes nested value tree.raw) : tree.isFinite := by
  induction tree generalizing nested value with
  | leaf c =>
    obtain ⟨field, comparison, literal⟩ := c
    cases h with
    | operandObject _ _ _ _ hvalue hliteral =>
      exact Literal.isFinite_ofJson (hrange.member hvalue) hliteral
    | operandList _ hliteral =>
      exact Literal.isFinite_ofJson (hrange.item (by simp)) hliteral
  | join c left right ihl ihr =>
    rw [isFinite]
    cases h with
    | operatorObject _ _ _ hleft hl hright hr =>
      rw [ihl (hrange.member hleft) hl, ihr (hrange.member hright) hr]
      rfl
    | operatorList _ hl hr =>
      rw [ihl (hrange.item (by simp)) hl, ihr (hrange.item (by simp)) hr]
      rfl

end Tree

/-! ## The document of a tree -/

namespace Tree

theorem canonical_literal (literal : Literal) : literal.toJson.canonical = literal.toJson := by
  cases literal with
  | number x =>
    rw [Literal.toJson, Json.ofBinary64]
    split <;> rfl
  | text s => rfl

theorem toJson_leaf (c : Condition) : (leaf c).toJson = .object
    [("attribute", .text c.field), ("operator", .text c.comparison.sign),
      ("type", .text "operand"), ("value", c.literal.toJson)] := by
  simp only [toJson, document, Json.canonical, Json.canonicalMembers, Json.sortMembers,
    Json.insertMember, canonical_literal, List.foldl_cons, List.foldl_nil, String.reduceEq,
    String.reduceLT, if_true, if_false]

theorem toJson_join (c : Connective) (left right : Tree) : (join c left right).toJson = .object
    [("left", left.toJson), ("operator", .text c.word), ("right", right.toJson),
      ("type", .text "operator")] := by
  simp only [toJson, document, Json.canonical, Json.canonicalMembers, Json.sortMembers,
    Json.insertMember, List.foldl_cons, List.foldl_nil, String.reduceEq, String.reduceLT, if_true,
    if_false]

/-- The depth measured on the document of a tree is the height of the tree. -/
theorem sideDepth_toJson (tree : Tree) : tree.toJson.sideDepth = tree.height := by
  induction tree with
  | leaf c =>
    rw [toJson_leaf]
    rfl
  | join c left right ihl ihr =>
    rw [toJson_join, height, ← ihl, ← ihr]
    simp [Json.sideDepth, Json.sideDepths]

theorem ofJson_toJson {literal : Literal} (h : literal.isFinite) :
    Literal.ofJson literal.toJson = .ok literal := by
  cases literal with
  | number x =>
    have hfinite : x.isFinite = true := h
    rw [Literal.toJson, Json.ofBinary64, if_pos hfinite]
    rfl
  | text s => rfl

/-- The document of a tree encodes it, wherever the document stands. -/
theorem encodes_toJson {tree : Tree} (h : tree.isFinite) (nested : Bool) :
    RawTree.Encodes nested tree.toJson tree.raw := by
  induction tree generalizing nested with
  | leaf c =>
    rw [toJson_leaf]
    exact .operandObject rfl rfl rfl rfl rfl (ofJson_toJson h)
  | join c left right ihl ihr =>
    rw [isFinite, Bool.and_eq_true] at h
    rw [toJson_join]
    exact .operatorObject rfl rfl rfl rfl (ihl h.1 true) rfl (ihr h.2 true)

/-- A tree with finite numbers comes back from its document if the limit admits its depth. -/
theorem load_toJson {tree : Tree} (h : tree.isFinite) (limit : Nat) :
    load limit tree.toJson =
      if tree.depth ≤ limit then .ok tree else .error (.depthExceeded tree.depth limit) := by
  rw [depth_eq_height]
  split
  · next hle => exact load_eq_ok.2 ⟨by rwa [sideDepth_toJson], encodes_toJson h false⟩
  · next hlt =>
    rw [load, sideDepth_toJson]
    exact if_pos (by omega)

/-- A tree within a limit comes back from its document under that limit. -/
theorem Within.load_toJson {tree : Tree} {limit : Nat} (h : tree.Within limit) :
    load limit tree.toJson = .ok tree := by
  rw [Tree.load_toJson h.isFinite, if_pos]
  rw [depth_eq_height]
  exact h.height_le

/-- The document of a tree holds only numbers that documents can hold. -/
theorem inRange_toJson {tree : Tree} (h : tree.isFinite) : tree.toJson.InRange := by
  induction tree with
  | leaf c =>
    obtain ⟨field, comparison, literal⟩ := c
    rw [toJson_leaf]
    intro n hn
    cases literal with
    | number x =>
      have hfinite : x.isFinite = true := h
      simp only [Literal.toJson, Json.ofBinary64, hfinite, if_true, Json.subdocuments,
        Json.memberSubdocuments, List.append_nil, List.cons_append, List.nil_append, List.mem_cons,
        List.not_mem_nil, reduceCtorEq, Json.number.injEq, false_or, or_false] at hn
      rw [hn]
      exact hfinite
    | text s =>
      simp [Literal.toJson, Json.subdocuments, Json.memberSubdocuments] at hn
  | join c left right ihl ihr =>
    rw [isFinite, Bool.and_eq_true] at h
    rw [toJson_join]
    intro n hn
    simp only [Json.subdocuments, Json.memberSubdocuments, List.append_nil, List.cons_append,
      List.nil_append, List.mem_cons, List.mem_append, List.not_mem_nil, reduceCtorEq, false_or,
      or_false] at hn
    rcases hn with hn | hn
    · exact ihl h.1 n hn
    · exact ihr h.2 n hn

/-- **Trees survive their documents, with the limit exact.** The document of a tree with finite
numbers can be held, it measures as deep as the tree is, and it loads as the same tree if the limit
admits that depth and fails with that depth if not; a text literal comes back as a text whatever it
looks like. All trees that are read, combined or loaded have finite numbers. -/
theorem load_toJson_of_any_source :
    (∀ (tree : Tree) (limit : Nat), tree.isFinite →
      tree.toJson.InRange ∧ tree.toJson.sideDepth = tree.depth ∧
      load limit tree.toJson =
        if tree.depth ≤ limit then .ok tree else .error (.depthExceeded tree.depth limit)) ∧
    (∀ (p : Parser) (rule : String) (tree : Tree), p.parse rule = .ok tree → tree.isFinite) ∧
    (∀ (combiner : Combiner) (rules : List String) (tree : Tree),
      combiner.combine rules = .ok tree → tree.isFinite) ∧
    (∀ (limit : Nat) (value : Json) (tree : Tree), value.InRange →
      load limit value = .ok tree → tree.isFinite) ∧
    ∀ text, Literal.ofJson (Literal.text text).toJson = .ok (.text text) := by
  refine ⟨fun tree limit h => ⟨inRange_toJson h, ?_, load_toJson h limit⟩,
    fun p rule tree h => (Parser.parse_within h).isFinite,
    fun combiner rules tree h => (Combiner.combine_within h).isFinite,
    fun limit value tree hrange h => isFinite_of_encodes hrange (load_eq_ok.1 h).2,
    fun text => rfl⟩
  rw [sideDepth_toJson, depth_eq_height]

/-- A quoted number, read and combined under the least limit that admits it. -/
theorem load_toJson_quoted :
    (⟨.firstMatch, 1⟩ : Parser).parse "a = '30'" = .ok (leaf ⟨"a", .equal, .text "30"⟩) ∧
    (⟨⟨.firstMatch, 1⟩, .fixedAnd⟩ : Combiner).combine ["a = '30'"] =
      .ok (leaf ⟨"a", .equal, .text "30"⟩) ∧
    load 1 (leaf ⟨"a", .equal, .text "30"⟩).toJson = .ok (leaf ⟨"a", .equal, .text "30"⟩) ∧
    (leaf ⟨"a", .equal, .text "30"⟩).isFinite := by
  have hparse : (⟨.firstMatch, 1⟩ : Parser).parse "a = '30'" =
      .ok (leaf ⟨"a", .equal, .text "30"⟩) := rfl
  have hcombine : (⟨⟨.firstMatch, 1⟩, .fixedAnd⟩ : Combiner).combine ["a = '30'"] =
      .ok (leaf ⟨"a", .equal, .text "30"⟩) :=
    Combiner.combine_eq_ok.2 ⟨List.cons_ne_nil _ _, Nat.le_refl 1, [_], rfl,
      Combiner.combineTrees_eq_ok.2 ⟨_, [], rfl, rfl, Nat.le_refl 1⟩⟩
  have hle : (leaf ⟨"a", .equal, .text "30"⟩).depth ≤ 1 := by
    rw [depth_eq_height]
    exact Nat.le_refl 1
  obtain ⟨hroundtrip, hread, hcombined, hloaded, -⟩ := load_toJson_of_any_source
  obtain ⟨hrange, -, -⟩ := hroundtrip _ 1 (hread _ _ _ hparse)
  obtain ⟨-, -, hload⟩ := hroundtrip _ 1 (hcombined _ _ _ hcombine)
  rw [if_pos hle] at hload
  exact ⟨hparse, hcombine, hload, hloaded 1 _ _ hrange hload⟩

end Tree

end Rulebook
