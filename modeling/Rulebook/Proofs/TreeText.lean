import Rulebook.Proofs.Rereading
import Rulebook.Record.Reading

/-!
# Trees are read from their text

A tree is nested in its text as deep as it is high: there is one object for each node and nothing
else that counts. So a reader that allows so many objects inside each other reads exactly the trees
of no greater depth from their text (`Tree.ofSource_document`), wherever the text of the tree
stands. What it reads is the tree with the numbers of its conditions read again.
-/

namespace Rulebook

namespace Tree

/-- The text of a tree has as many objects inside each other as the tree is high. -/
theorem nesting_document (tree : Tree) : tree.document.nesting = tree.height := by
  induction tree with
  | leaf c =>
    have hliteral : c.literal.toJson.nesting = 0 := by
      cases c.literal with
      | number x =>
        rw [Literal.toJson, Json.ofBinary64]
        split <;> rfl
      | text s => rfl
    simp only [document, Json.nesting, Json.nestingMembers, hliteral, height, Nat.max_self,
      Nat.add_zero]
  | join c left right ihl ihr =>
    simp only [document, Json.nesting, Json.nestingMembers, ihl, ihr, height, Nat.zero_max,
      Nat.max_zero]

/-- A literal is written with numbers that documents can hold. -/
theorem inRange_literal {literal : Literal} (h : literal.isFinite) : literal.toJson.InRange := by
  cases literal with
  | number x =>
    have hfinite : x.isFinite = true := h
    rw [Literal.toJson, Json.ofBinary64, if_pos hfinite]
    intro n hn
    cases List.mem_singleton.1 hn
    exact hfinite
  | text s =>
    intro n hn
    cases List.mem_singleton.1 hn

/-- A text is a document that holds no number. -/
theorem inRange_text (value : String) : (Json.text value).InRange := by
  intro n hn
  cases List.mem_singleton.1 hn

/-- A tree is written with numbers that documents can hold. -/
theorem inRange_document {tree : Tree} (h : tree.isFinite) : tree.document.InRange := by
  induction tree with
  | leaf c =>
    rw [document, Json.inRange_object]
    simp [inRange_text, inRange_literal h]
  | join c left right ihl ihr =>
    rw [isFinite, Bool.and_eq_true] at h
    rw [document, Json.inRange_object]
    simp [inRange_text, ihl h.1, ihr h.2]

/-- What is written of a tree encodes it. -/
theorem encodes_document {tree : Tree} (h : tree.isFinite) (nested : Bool) :
    RawTree.Encodes nested tree.document tree.raw := by
  induction tree generalizing nested with
  | leaf c => exact .operandObject rfl rfl rfl rfl rfl (ofJson_toJson h)
  | join c left right ihl ihr =>
    rw [isFinite, Bool.and_eq_true] at h
    exact .operatorObject rfl rfl rfl rfl (ihl h.1 true) rfl (ihr h.2 true)

end Tree

/-- A failure of the text, as a reason. -/
theorem Except.orFailure_ofOption {α : Type} (f : Failure) (x : Option α) :
    Except.orFailure (Except.ofOption f x) = Except.ofOption (.failure f) x := by
  cases x <;> rfl

namespace RawTree

/-- Members after the type are read one after another, as deep as is allowed. -/
theorem readMembers_source (found : Option Tag) (limit : Nat) {members : List (String × Json)}
    (h : ∀ m ∈ members, m.1 ≠ "type") :
    readMembers found limit (Json.memberSources members) =
      Except.ofOption (.failure .malformed)
        (if Json.nestingMembers members ≤ limit then
          (Json.rereadMembers? members).map fun members => (found, members)
        else none) := by
  induction members with
  | nil =>
    rw [Json.nestingMembers, if_pos (Nat.zero_le limit)]
    rfl
  | cons member members ih =>
    obtain ⟨key, value⟩ := member
    obtain ⟨hkey, hmembers⟩ := List.forall_mem_cons.1 h
    have hkeyOk : Except.orFailure (.ok key) = .ok key := rfl
    rw [Json.memberSources, readMembers.eq_def]
    simp only [hkeyOk, Except.ok_bind, if_neg hkey, Source.content_source, ih hmembers,
      Except.orFailure_ofOption, Json.nestingMembers, Json.rereadMembers?, Nat.max_le]
    by_cases hvalue : value.nesting ≤ limit
    · by_cases hrest : Json.nestingMembers members ≤ limit
      · rw [if_pos hvalue, if_pos hrest, if_pos ⟨hvalue, hrest⟩]
        cases value.reread? with
        | none => rfl
        | some value => cases Json.rereadMembers? members <;> rfl
      · rw [if_pos hvalue, if_neg hrest, if_neg (mt And.right hrest)]
        cases value.reread? <;> rfl
    · rw [if_neg hvalue, if_neg (mt And.left hvalue)]
      rfl

/-- The parts of a node are looked for behind its type. -/
theorem load_object {name : String} {tag : Tag} {members : List (String × Json)}
    (hname : Tag.ofName name = .ok tag) (h : ∀ m ∈ members, m.1 ≠ "type") :
    load false (.object (("type", .text name) :: members)) =
      match tag with
      | .operand => operandMembers none none none members
      | .operator => operatorMembers none none none members := by
  have hnone : Json.valuesOf "type" members = [] := by
    rw [Json.valuesOf, List.map_eq_nil_iff, List.filter_eq_nil_iff]
    exact fun m hm => by simpa using h m hm
  have hfind : Tag.find false none (("type", .text name) :: members) = .ok tag := by
    refine tagFind_eq_ok.2 ⟨.text name, ?_, hname⟩
    rw [Json.valuesOf_cons_self, hnone]
  rw [load, hfind]
  cases tag with
  | operand =>
    show operandMembers none none none (("type", .text name) :: members) = _
    rw [operandMembers, if_neg (by decide), if_neg (by decide), if_neg (by decide)]
  | operator =>
    show operatorMembers none none none (("type", .text name) :: members) = _
    rw [operatorMembers, if_neg (by decide), if_neg (by decide), if_neg (by decide)]

/-- A node that begins with its type is loaded from its text with its numbers read again, if it is
not nested too deep. -/
theorem ofSource_object {limit : Nat} {name : String} {tag : Tag} {members : List (String × Json)}
    (hname : Tag.ofName name = .ok tag) (h : ∀ m ∈ members, m.1 ≠ "type") {node : Json}
    (hnode : node = .object (("type", .text name) :: members)) :
    ofSource limit node.source =
      Except.ofOption (.failure .malformed)
        (if node.nesting ≤ limit then node.reread? else none) >>=
          fun value => Except.orFault (load false value) := by
  subst hnode
  cases limit with
  | zero =>
    rw [Json.nesting, if_neg (by omega)]
    rfl
  | succ limit =>
    have htag : Source.single (Tag.ofJson false) (.text (.ok name)) = .ok tag := by
      show Except.orFault (Tag.ofName name) = _
      rw [hname]
      rfl
    have hnesting : (Json.object (("type", .text name) :: members)).nesting =
        1 + Json.nestingMembers members := by
      show 1 + max 0 (Json.nestingMembers members) = _
      rw [Nat.zero_max]
    have hreread : (Json.object (("type", .text name) :: members)).reread? =
        (Json.rereadMembers? members).map fun members =>
          .object (("type", .text name) :: members) := by
      simp only [Json.reread?, Json.rereadMembers?]
      cases Json.rereadMembers? members <;> rfl
    rw [Json.source, ofSource, Json.memberSources, readMembers.eq_def]
    simp only [Except.orFailure, Except.ok_bind, if_true, Json.source, htag]
    rw [readMembers_source (some tag) limit h, hnesting, hreread]
    by_cases hle : Json.nestingMembers members ≤ limit
    · rw [if_pos hle, if_pos (by omega)]
      cases hmembers : Json.rereadMembers? members with
      | none => rfl
      | some members' =>
        have hkeys := Json.forall_keys_rereadMembers? (p := (· ≠ "type")) hmembers h
        simp only [Option.map_some, Except.ofOption_some, Except.ok_bind, load_object hname hkeys]
        cases tag <;> rfl
    · rw [if_neg hle, if_neg (by omega)]
      rfl

/-- A tree is read from its text if it is not higher than objects may stand inside each other. -/
theorem ofSource_document {tree : Tree} (h : tree.isFinite) (limit : Nat) :
    ofSource limit tree.document.source =
      Except.ofOption (.failure .malformed)
        (if tree.height ≤ limit then tree.reread?.map Tree.raw else none) := by
  obtain ⟨hreread, hfinite⟩ := Tree.reread_document h
  -- either kind of node is written with its type first
  have hread : ofSource limit tree.document.source =
      Except.ofOption (.failure .malformed)
        (if tree.document.nesting ≤ limit then tree.document.reread? else none) >>=
          fun value => Except.orFault (load false value) := by
    cases tree with
    | leaf c => exact ofSource_object rfl (by simp) rfl
    | join c left right => exact ofSource_object rfl (by simp) rfl
  rw [hread, Tree.nesting_document, hreread]
  split
  · cases htree : tree.reread? with
    | none => rfl
    | some tree' =>
      rw [Option.map_some, Except.ofOption_some, Except.ok_bind,
        (tree'.encodes_document (hfinite tree' htree) false).load]
      rfl
  · rfl

end RawTree

/-- **Trees are read from their text.** A tree comes back from its text, with its numbers read
again, where as many objects may stand inside each other as the tree is deep; where fewer may, the
text is not a document, and neither is it if a number is beyond the range. -/
theorem Tree.ofSource_document {tree : Tree} (h : tree.isFinite) (limit : Nat) :
    Tree.ofSource limit tree.document.source =
      Except.ofOption (.failure .malformed)
        (if tree.depth ≤ limit then tree.reread? else none) := by
  rw [Tree.ofSource, RawTree.ofSource_document h, depth_eq_height]
  split
  · cases tree.reread? with
    | none => rfl
    | some tree =>
      rw [Option.map_some, Except.ofOption_some, Except.ok_bind, RawTree.resolve_eq_ok.2 rfl]
      rfl
  · rfl

end Rulebook
