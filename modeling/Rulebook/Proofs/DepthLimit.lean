import Rulebook.Proofs.Documents
import Rulebook.Proofs.Running

/-!
# How far the depth limit reaches

Before a document is loaded its depth is measured along the members `left` and `right` of objects.
A node may also be a list, and a list measures one however deep the tree is that it writes. So a
tree deeper than the limit can be loaded, and from its own document it then cannot be loaded again.
`nodeDepth` counts nodes in both writings: the limit holds for a loaded tree exactly if it holds
for the `nodeDepth` of the document, which it does whenever the document has no lists.
-/

namespace Rulebook

namespace Json

/-- The type of an operator, by its name or its number. -/
def marksOperator : Json → Bool
  | .text name => name == "operator"
  | .number (.int n) => n == 1
  | _ => false

mutual

/-- The depth of the tree that a document writes, with lists counted as the nodes they are. -/
def nodeDepth : Json → Nat
  | .object members =>
    if (valuesOf "type" members).any marksOperator then 1 + memberNodeDepth members else 1
  | .list (tag :: items) => if tag.marksOperator then 1 + itemNodeDepth items else 1
  | _ => 1

/-- The largest depth among the members `left` and `right`. -/
def memberNodeDepth : List (String × Json) → Nat
  | [] => 0
  | (key, value) :: rest =>
    max (if key = "left" ∨ key = "right" then value.nodeDepth else 0) (memberNodeDepth rest)

/-- The largest depth among items. -/
def itemNodeDepth : List Json → Nat
  | [] => 0
  | item :: items => max item.nodeDepth (itemNodeDepth items)

end

/-- Only the sides of a node count among its members. -/
theorem memberNodeDepth_eq (members : List (String × Json)) :
    memberNodeDepth members =
      max (itemNodeDepth (valuesOf "left" members)) (itemNodeDepth (valuesOf "right" members)) := by
  induction members with
  | nil => rfl
  | cons member rest ih =>
    obtain ⟨key, value⟩ := member
    rw [memberNodeDepth, ih]
    by_cases hleft : key = "left"
    · subst hleft
      rw [if_pos (.inl rfl), valuesOf_cons_self, valuesOf_cons_of_ne (by decide), itemNodeDepth]
      omega
    · by_cases hright : key = "right"
      · subst hright
        rw [if_pos (.inr rfl), valuesOf_cons_self, valuesOf_cons_of_ne hleft, itemNodeDepth]
        omega
      · rw [if_neg (not_or.2 ⟨hleft, hright⟩), valuesOf_cons_of_ne hleft,
          valuesOf_cons_of_ne hright, Nat.zero_max]

/-- A side is measured with its node. -/
theorem sideDepth_le_sideDepths {key : String} {value : Json} {members : List (String × Json)}
    (hkey : key = "left" ∨ key = "right") (h : valuesOf key members = [value]) :
    value.sideDepth ≤ sideDepths members := by
  induction members with
  | nil => cases h
  | cons member rest ih =>
    obtain ⟨name, found⟩ := member
    rw [sideDepths]
    by_cases hname : name = key
    · subst hname
      rw [valuesOf_cons_self] at h
      obtain ⟨rfl, -⟩ := List.cons.inj h
      rw [if_pos hkey]
      exact Nat.le_max_left ..
    · rw [valuesOf_cons_of_ne hname] at h
      exact Nat.le_trans (ih h) (Nat.le_max_right ..)

/-- No document inside this one is a list. -/
def ListFree (value : Json) : Prop := ∀ items, .list items ∉ value.subdocuments

theorem ListFree.member {name : String} {value : Json} {members : List (String × Json)}
    (h : (Json.object members).ListFree) (hvalue : valuesOf name members = [value]) :
    value.ListFree := fun items hitems => h items
  (List.mem_cons_of_mem _ (mem_memberSubdocuments.2 ⟨_, mem_of_valuesOf hvalue, hitems⟩))

end Json

theorem RawTree.Tag.marksOperator_of_ofJson {nested : Bool} {value : Json} {tag : Tag}
    (h : ofJson nested value = .ok tag) : value.marksOperator = decide (tag = .operator) := by
  cases value with
  | text name =>
    rw [ofJson, ofName] at h
    by_cases hoperand : name = "operand"
    · rw [if_pos hoperand] at h
      cases h
      rw [Json.marksOperator, hoperand]
      decide
    rw [if_neg hoperand] at h
    by_cases hoperator : name = "operator"
    · rw [if_pos hoperator] at h
      cases h
      rw [Json.marksOperator, hoperator]
      decide
    · rw [if_neg hoperator] at h
      cases h
  | number n =>
    cases n with
    | real x => cases h
    | int n =>
      rw [ofJson] at h
      split at h
      · by_cases hzero : n = 0
        · rw [if_pos hzero] at h
          cases h
          rw [Json.marksOperator, hzero]
          decide
        rw [if_neg hzero] at h
        by_cases hone : n = 1
        · rw [if_pos hone] at h
          cases h
          rw [Json.marksOperator, hone]
          decide
        · rw [if_neg hone] at h
          cases h
      · cases h
  | _ => cases h

namespace Tree

/-- A tree is as high as its document is deep, counting lists. -/
theorem height_eq_nodeDepth {nested : Bool} {value : Json} {tree : Tree}
    (h : RawTree.Encodes nested value tree.raw) : tree.height = value.nodeDepth := by
  induction tree generalizing nested value with
  | leaf c =>
    cases h with
    | operandObject htype htag =>
      simp [Json.nodeDepth, htype, RawTree.Tag.marksOperator_of_ofJson htag, height]
    | operandList htag =>
      simp [Json.nodeDepth, RawTree.Tag.marksOperator_of_ofJson htag, height]
  | join c left right ihl ihr =>
    cases h with
    | operatorObject htype htag hword hleft hl hright hr =>
      simp only [Json.nodeDepth, htype, RawTree.Tag.marksOperator_of_ofJson htag, List.any_cons,
        List.any_nil, decide_true, Bool.true_or, if_true, Json.memberNodeDepth_eq, hleft, hright,
        Json.itemNodeDepth, height, ihl hl, ihr hr]
      omega
    | @operatorList _ tag first second _ _ _ htag hl hr =>
      -- the word among the items measures no more than a side does
      have hpos : 0 < left.height := left.height_pos
      have hword : (Json.text c.word).nodeDepth = 1 := rfl
      simp only [Json.nodeDepth, RawTree.Tag.marksOperator_of_ofJson htag, decide_true, if_true,
        Json.itemNodeDepth, height, ← ihl hl, ← ihr hr]
      omega

/-- Without lists nothing of a tree escapes the measure. -/
theorem height_le_sideDepth {nested : Bool} {value : Json} {tree : Tree} (hfree : value.ListFree)
    (h : RawTree.Encodes nested value tree.raw) : tree.height ≤ value.sideDepth := by
  induction tree generalizing nested value with
  | leaf c =>
    cases h with
    | operandObject =>
      rw [Json.sideDepth, height]
      omega
    | operandList => exact Nat.le_refl 1
  | join c left right ihl ihr =>
    cases h with
    | operatorObject htype htag hword hleft hl hright hr =>
      have hleftDepth := Json.sideDepth_le_sideDepths (.inl rfl) hleft
      have hrightDepth := Json.sideDepth_le_sideDepths (.inr rfl) hright
      have := ihl (hfree.member hleft) hl
      have := ihr (hfree.member hright) hr
      rw [Json.sideDepth, height]
      omega
    | operatorList => exact absurd (List.mem_cons_self ..) (hfree _)

/-! ## Trees written as lists -/

/-- The document of a tree with a list for each of its nodes. -/
def listed : Tree → Json
  | .leaf c => .list
    [.text "operand", .text c.field, .text c.comparison.sign, c.literal.toJson]
  | .join c left right => .list [.text "operator", .text c.word, left.listed, right.listed]

theorem encodes_listed {tree : Tree} (h : tree.isFinite) (nested : Bool) :
    RawTree.Encodes nested tree.listed tree.raw := by
  induction tree generalizing nested with
  | leaf c => exact .operandList rfl (ofJson_toJson h)
  | join c left right ihl ihr =>
    rw [isFinite, Bool.and_eq_true] at h
    exact .operatorList rfl (ihl h.1 true) (ihr h.2 true)

/-- As a list every tree loads, however deep it is, unless the limit is zero. -/
theorem load_listed {tree : Tree} {limit : Nat} (h : tree.isFinite) (hlimit : 0 < limit) :
    load limit tree.listed = .ok tree := by
  have hmeasure : tree.listed.sideDepth = 1 := by cases tree <;> rfl
  exact load_eq_ok.2 ⟨by omega, encodes_listed h false⟩

/-! ## The depth of what was loaded -/

/-- **How far the depth limit holds.** A loaded tree is as deep as its document with the lists
counted. So it keeps to the limit, and loads again from its own document, exactly if that depth
does, as it must in a document without lists. The service evaluates what was loaded in any case. -/
theorem loaded_within_limit_iff {limit : Nat} {value : Json} {tree : Tree} (hrange : value.InRange)
    (h : load limit value = .ok tree) :
    tree.depth = value.nodeDepth ∧
    ((tree.depth ≤ limit ∧ load limit tree.toJson = .ok tree) ↔ value.nodeDepth ≤ limit) ∧
    (value.ListFree → value.nodeDepth ≤ limit) ∧
    ∀ (s : Settings) (data : Json), s.maxDepth = limit →
      Service.evaluateDocument s value data = Service.evaluateTree s tree data := by
  obtain ⟨hmeasure, hencodes⟩ := load_eq_ok.1 h
  have hdepth : tree.depth = value.nodeDepth := by
    rw [depth_eq_height, height_eq_nodeDepth hencodes]
  refine ⟨hdepth, ⟨?_, ?_⟩, ?_, ?_⟩
  · rintro ⟨hle, -⟩
    rwa [← hdepth]
  · intro hle
    rw [← hdepth] at hle
    exact ⟨hle, by rw [load_toJson (isFinite_of_encodes hrange hencodes), if_pos hle]⟩
  · intro hfree
    rw [← height_eq_nodeDepth hencodes]
    exact Nat.le_trans (height_le_sideDepth hfree hencodes) hmeasure
  · rintro s data rfl
    exact Service.evaluateDocument_of_load h data

/-- Two conditions in lists, under a limit that admits their tree. -/
theorem loaded_within_limit_listed :
    (listed
      (.join .and (.leaf ⟨"a", .equal, .text "x"⟩) (.leaf ⟨"b", .equal, .text "y"⟩))).InRange ∧
    load 2 (listed (.join .and (.leaf ⟨"a", .equal, .text "x"⟩) (.leaf ⟨"b", .equal, .text "y"⟩))) =
      .ok (.join .and (.leaf ⟨"a", .equal, .text "x"⟩) (.leaf ⟨"b", .equal, .text "y"⟩)) ∧
    (join .and (.leaf ⟨"a", .equal, .text "x"⟩) (.leaf ⟨"b", .equal, .text "y"⟩)).depth ≤ 2 := by
  have hrange : (listed (.join .and (.leaf ⟨"a", .equal, .text "x"⟩)
      (.leaf ⟨"b", .equal, .text "y"⟩))).InRange := by
    intro n hn
    simp [listed, Literal.toJson, Json.subdocuments, Json.itemSubdocuments] at hn
  have hload := @load_listed (.join .and (.leaf ⟨"a", .equal, .text "x"⟩)
    (.leaf ⟨"b", .equal, .text "y"⟩)) 2 rfl Nat.two_pos
  exact ⟨hrange, hload, ((loaded_within_limit_iff hrange hload).2.1.2 (by decide)).1⟩

/-- The same lists under the limit one: the tree is loaded and evaluated although it is deeper, and
its own document is refused. -/
theorem load_listed_beyond_limit :
    load 1 (.list [.text "operator", .text "AND",
        .list [.text "operand", .text "a", .text "=", .text "x"],
        .list [.text "operand", .text "b", .text "=", .text "y"]]) =
      .ok (.join .and (.leaf ⟨"a", .equal, .text "x"⟩) (.leaf ⟨"b", .equal, .text "y"⟩)) ∧
    ¬(join .and (.leaf ⟨"a", .equal, .text "x"⟩) (.leaf ⟨"b", .equal, .text "y"⟩)).depth ≤ 1 ∧
    load 1 (join .and (.leaf ⟨"a", .equal, .text "x"⟩) (.leaf ⟨"b", .equal, .text "y"⟩)).toJson =
      .error (.depthExceeded 2 1) ∧
    ∀ data, Service.evaluateDocument { maxDepth := 1 } (.list [.text "operator", .text "AND",
        .list [.text "operand", .text "a", .text "=", .text "x"],
        .list [.text "operand", .text "b", .text "=", .text "y"]]) data =
      Service.evaluateTree { maxDepth := 1 }
        (.join .and (.leaf ⟨"a", .equal, .text "x"⟩) (.leaf ⟨"b", .equal, .text "y"⟩)) data := by
  have hload := @load_listed (.join .and (.leaf ⟨"a", .equal, .text "x"⟩)
    (.leaf ⟨"b", .equal, .text "y"⟩)) 1 rfl Nat.one_pos
  refine ⟨hload, ?_, ?_, fun data => Service.evaluateDocument_of_load hload data⟩
  · rw [depth_eq_height]
    decide
  · rw [load, sideDepth_toJson]
    rfl

end Tree

end Rulebook
