import Rulebook.Proofs.Documents
import Rulebook.Record.Reading

/-!
# Why a document is no tree

Loading asks three things of a document one after another, each of the whole document: that it is
not too deep, that it has the shape of a tree, and that its operators are known. So the first of
these that does not hold of the document is the one that is reported, wherever in the document it
fails. The shape is `RawTree.Encodes`, which leaves the operators as words. What remains to be said
is which of the words is reported when more than one is not known: the first in the order of
`RawTree.operators`, a node before its sides and the left side before the right
(`RawTree.resolve_of_unsupported`).

A tree that is part of a record is read without the question of depth, from a document or from a
text, and comes out as the same tree (`Record.treeOfJson_eq_ok`, `Tree.ofSource_eq_ok`).
-/

namespace Rulebook

namespace RawTree

/-! ## Operators as they are written -/

/-- The operator of a node as it is written. -/
inductive Written where
  /-- of an operand: the word where a comparison should be -/
  | comparison (word : String)
  /-- of an operator: the word where a connective should be -/
  | connective (word : String)

namespace Written

/-- The word that is written. -/
def word : Written → String
  | .comparison word | .connective word => word

/-- Holds for the words that nodes of the kind may have. -/
def supported : Written → Bool
  | .comparison word => word = ">" || word = "<" || word = "="
  | .connective word => word = "AND" || word = "OR"

theorem supported_comparison_iff {word : String} :
    (comparison word).supported ↔ ∃ c : Comparison, word = c.sign := by
  simp only [supported, Bool.or_eq_true, decide_eq_true_eq]
  refine ⟨?_, ?_⟩
  · rintro ((rfl | rfl) | rfl)
    · exact ⟨.greater, rfl⟩
    · exact ⟨.less, rfl⟩
    · exact ⟨.equal, rfl⟩
  · rintro ⟨c, rfl⟩
    cases c <;> simp [Comparison.sign]

theorem supported_connective_iff {word : String} :
    (connective word).supported ↔ ∃ c : Connective, word = c.word := by
  simp only [supported, Bool.or_eq_true, decide_eq_true_eq]
  refine ⟨?_, ?_⟩
  · rintro (rfl | rfl)
    · exact ⟨.and, rfl⟩
    · exact ⟨.or, rfl⟩
  · rintro ⟨c, rfl⟩
    cases c <;> simp [Connective.word]

end Written

/-- The operators of a tree, that of a node before those of its sides and those of the left side
before those of the right. -/
def operators : RawTree → List Written
  | .operand _ sign _ => [.comparison sign]
  | .operator word left right => .connective word :: (left.operators ++ right.operators)

/-- The first operator that is not supported. -/
def firstUnsupported? (raw : RawTree) : Option Written := raw.operators.find? (!·.supported)

theorem firstUnsupported?_operand (field sign : String) (literal : Literal) :
    (operand field sign literal).firstUnsupported? =
      if (Written.comparison sign).supported then none else some (.comparison sign) := by
  rw [firstUnsupported?, operators, List.find?_singleton]
  cases (Written.comparison sign).supported <;> rfl

/-- A node is looked at before its sides, and the left side before the right. -/
theorem firstUnsupported?_operator (word : String) (left right : RawTree) :
    (operator word left right).firstUnsupported? =
      if (Written.connective word).supported then
        left.firstUnsupported?.or right.firstUnsupported?
      else some (.connective word) := by
  rw [firstUnsupported?, operators, List.find?_cons, List.find?_append]
  cases (Written.connective word).supported <;> rfl

theorem firstUnsupported?_eq_none_iff {raw : RawTree} :
    raw.firstUnsupported? = none ↔ ∀ o ∈ raw.operators, o.supported := by
  simp only [firstUnsupported?, List.find?_eq_none, Bool.not_eq_true', Bool.not_eq_false]

theorem firstUnsupported?_eq_some_iff {raw : RawTree} {o : Written} :
    raw.firstUnsupported? = some o ↔ ∃ before after, raw.operators = before ++ o :: after ∧
      (∀ b ∈ before, b.supported) ∧ o.supported = false := by
  rw [firstUnsupported?, List.find?_eq_some_iff_append]
  simp only [Bool.not_eq_true', Bool.not_not]
  refine ⟨?_, ?_⟩
  · rintro ⟨ho, before, after, hsplit, hbefore⟩
    exact ⟨before, after, hsplit, hbefore, ho⟩
  · rintro ⟨before, after, hsplit, hbefore, ho⟩
    exact ⟨ho, before, after, hsplit, hbefore⟩

/-! ## Looking operators up -/

theorem comparison_of_unsupported {word : String} (h : ¬(Written.comparison word).supported) :
    Comparison.resolve word = .error (.unsupportedOperator word) := by
  rw [Written.supported_comparison_iff] at h
  rw [Comparison.resolve]
  split
  · next c hword => exact absurd ⟨c, (Comparison.sign_of_ofWord? hword).symm⟩ h
  · rfl

theorem connective_of_unsupported {word : String} (h : ¬(Written.connective word).supported) :
    Connective.resolve word = .error (.unsupportedOperator word) := by
  rw [Written.supported_connective_iff] at h
  rw [Connective.resolve]
  split
  · next c hword => exact absurd ⟨c, (Connective.word_of_ofWord? hword).symm⟩ h
  · rfl

/-- Operators that are all supported are those of a tree. -/
theorem exists_tree_of_supported {raw : RawTree} (h : raw.firstUnsupported? = none) :
    ∃ tree : Tree, tree.raw = raw := by
  induction raw with
  | operand field sign literal =>
    rw [firstUnsupported?_operand] at h
    split at h
    · next hsign =>
      obtain ⟨c, rfl⟩ := Written.supported_comparison_iff.1 hsign
      exact ⟨.leaf ⟨field, c, literal⟩, rfl⟩
    · cases h
  | operator word left right ihl ihr =>
    rw [firstUnsupported?_operator] at h
    split at h
    · next hword =>
      obtain ⟨c, rfl⟩ := Written.supported_connective_iff.1 hword
      obtain ⟨hleft, hright⟩ := Option.or_eq_none_iff.1 h
      obtain ⟨l, rfl⟩ := ihl hleft
      obtain ⟨r, rfl⟩ := ihr hright
      exact ⟨.join c l r, rfl⟩
    · cases h

/-- Looking the operators up fails with the first that is not supported. -/
theorem resolve_of_unsupported {raw : RawTree} {o : Written}
    (h : raw.firstUnsupported? = some o) : raw.resolve = .error (.unsupportedOperator o.word) := by
  induction raw with
  | operand field sign literal =>
    rw [firstUnsupported?_operand] at h
    split at h
    · cases h
    · next hsign =>
      cases h
      rw [resolve, comparison_of_unsupported hsign]
      rfl
  | operator word left right ihl ihr =>
    rw [firstUnsupported?_operator] at h
    split at h
    · next hword =>
      obtain ⟨c, rfl⟩ := Written.supported_connective_iff.1 hword
      rw [resolve, Connective.resolve_eq_ok.2 rfl]
      rcases Option.or_eq_some_iff.1 h with hleft | ⟨hleft, hright⟩
      · rw [ihl hleft]
        rfl
      · -- the right side is looked at only behind a left side that is a tree
        obtain ⟨l, rfl⟩ := exists_tree_of_supported hleft
        rw [resolve_eq_ok.2 rfl, ihr hright]
        rfl
    · next hword =>
      cases h
      rw [resolve, connective_of_unsupported hword]
      rfl

/-- The operators of a tree are supported as they are written. -/
theorem firstUnsupported?_raw (tree : Tree) : tree.raw.firstUnsupported? = none := by
  have hresolve : tree.raw.resolve = .ok tree := resolve_eq_ok.2 rfl
  cases hfirst : tree.raw.firstUnsupported? with
  | none => rfl
  | some o =>
    rw [resolve_of_unsupported hfirst] at hresolve
    cases hresolve

end RawTree

/-! ## Loading -/

namespace Tree

variable {limit : Nat} {value : Json}

theorem load_of_deep (h : limit < value.sideDepth) :
    load limit value = .error (.depthExceeded value.sideDepth limit) := if_pos h

/-- A document of the shape of a tree that is not too deep has its operators looked up. -/
theorem load_of_encodes {raw : RawTree} (hdepth : value.sideDepth ≤ limit)
    (h : RawTree.Encodes false value raw) : load limit value = raw.resolve := by
  rw [load, if_neg (Nat.not_lt.2 hdepth), h.load]

/-- A document that is not too deep is a bad document exactly if it has not the shape of a tree. -/
theorem load_eq_badDocument_iff (hdepth : value.sideDepth ≤ limit) :
    (∃ fault, load limit value = .error (.badDocument fault)) ↔
      ¬∃ raw, RawTree.Encodes false value raw := by
  refine ⟨?_, ?_⟩
  · rintro ⟨fault, hfault⟩ ⟨raw, hencodes⟩
    rw [load_of_encodes hdepth hencodes] at hfault
    cases hfirst : raw.firstUnsupported? with
    | none =>
      obtain ⟨tree, rfl⟩ := RawTree.exists_tree_of_supported hfirst
      rw [RawTree.resolve_eq_ok.2 rfl] at hfault
      cases hfault
    | some o =>
      rw [RawTree.resolve_of_unsupported hfirst] at hfault
      cases hfault
  · intro hshape
    cases hload : RawTree.load false value with
    | ok raw => exact absurd ⟨raw, RawTree.encodes_of_load hload⟩ hshape
    | error fault =>
      refine ⟨fault, ?_⟩
      rw [load, if_neg (Nat.not_lt.2 hdepth), hload]

end Tree

/-- A tree inside a record is loaded without a limit. -/
theorem Record.treeOfJson_eq_ok {value : Json} {tree : Tree} :
    Record.treeOfJson value = .ok tree ↔ RawTree.Encodes false value tree.raw := by
  rw [treeOfJson, Except.bind_eq_ok]
  refine ⟨?_, ?_⟩
  · rintro ⟨raw, hload, h⟩
    split at h
    · next found hresolve =>
      cases h
      rw [← RawTree.resolve_eq_ok.1 hresolve]
      exact RawTree.encodes_of_load hload
    · cases h
  · intro h
    refine ⟨tree.raw, h.load, ?_⟩
    rw [RawTree.resolve_eq_ok.2 rfl]
    rfl

/-! ## Reading from texts

A text is read as it goes, so a node that is an object is read with its type taken out of its
members. What is left of them has the other parts as before. -/

namespace RawTree

/-- The members of a node but its type. -/
def withoutType (members : List (String × Json)) : List (String × Json) :=
  members.filter fun m => m.1 ≠ "type"

theorem valuesOf_withoutType {name : String} (hname : name ≠ "type")
    (members : List (String × Json)) :
    Json.valuesOf name (withoutType members) = Json.valuesOf name members := by
  rw [Json.valuesOf, Json.valuesOf, withoutType, List.filter_filter]
  congr 2
  funext m
  by_cases hm : m.1 = name
  · simp [hm, hname]
  · simp [hm]

theorem fills_withoutType {α : Type} {name : String} (hname : name ≠ "type")
    {read : Json → Except Fault α} {members : List (String × Json)} {part : α} :
    Fills name read none (withoutType members) part ↔ Fills name read none members part := by
  rw [Fills, Fills, valuesOf_withoutType hname]

theorem operandMembers_withoutType {members : List (String × Json)} {raw : RawTree} :
    operandMembers none none none (withoutType members) = .ok raw ↔
      operandMembers none none none members = .ok raw := by
  simp only [operandMembers_eq_ok, fills_withoutType, ne_eq, String.reduceEq, not_false_eq_true]

theorem operatorMembers_withoutType {members : List (String × Json)} {raw : RawTree} :
    operatorMembers none none none (withoutType members) = .ok raw ↔
      operatorMembers none none none members = .ok raw := by
  simp only [operatorMembers_eq_ok, fills_withoutType, ne_eq, String.reduceEq, not_false_eq_true]

end RawTree

theorem Except.orFault_eq_ok {α : Type} {x : Except Fault α} {a : α} :
    Except.orFault x = .ok a ↔ x = .ok a := by
  cases x with
  | ok b => exact ⟨fun h => congrArg _ (Except.ok.inj h), fun h => congrArg _ (Except.ok.inj h)⟩
  | error f => exact ⟨fun h => (nomatch h), fun h => (nomatch h)⟩

namespace RawTree

variable {limit : Nat} {source : Source} {value : Json}

/-- A reader of single values that refuses lists and objects sees as much of a value in a text as
of the value itself. -/
theorem single_eq_ok {α : Type} {read : Json → Except Fault α} {a : α}
    (hlist : ∀ items, read (.list items) ≠ .ok a)
    (hobject : ∀ members, read (.object members) ≠ .ok a)
    (h : source.content limit = .ok value) : source.single read = .ok a ↔ read value = .ok a := by
  have hseen : ∀ seen, source.scalar = .ok seen →
      (source.single read = .ok a ↔ read seen = .ok a) := by
    intro seen hscalar
    rw [Source.single, hscalar]
    exact Except.orFault_eq_ok
  cases source with
  | null | bool b =>
    cases h
    exact hseen _ rfl
  | number n =>
    cases n with
    | some n =>
      cases h
      exact hseen _ rfl
    | none => cases h
  | text t =>
    cases t with
    | ok t =>
      cases h
      exact hseen _ rfl
    | error f => cases h
  | broken reading skipping => cases h
  | list items stop =>
    cases limit with
    | zero => cases h
    | succ limit =>
      obtain ⟨values, -, hclosed⟩ := Except.bind_eq_ok.1 h
      rw [hseen (.list []) rfl, (Source.closed_eq_ok.1 hclosed).2]
      exact iff_of_false (hlist _) (hlist _)
  | object members stop =>
    cases limit with
    | zero => cases h
    | succ limit =>
      obtain ⟨values, -, hclosed⟩ := Except.bind_eq_ok.1 h
      rw [hseen (.object []) rfl, (Source.closed_eq_ok.1 hclosed).2]
      exact iff_of_false (hobject _) (hobject _)

theorem single_tag_eq_ok {tag : Tag} (h : source.content limit = .ok value) :
    source.single (Tag.ofJson false) = .ok tag ↔ Tag.ofJson false value = .ok tag :=
  single_eq_ok (fun _ h => nomatch h) (fun _ h => nomatch h) h

theorem contentMembers_cons {key : Except Failure String}
    {members : List (Except Failure String × Source)} {values : List (String × Json)}
    (h : Source.contentMembers limit ((key, source) :: members) = .ok values) :
    ∃ name value others, key = .ok name ∧ source.content limit = .ok value ∧
      Source.contentMembers limit members = .ok others ∧ values = (name, value) :: others := by
  rw [Source.contentMembers] at h
  obtain ⟨name, hname, hsource⟩ := Except.bind_eq_ok.1 h
  obtain ⟨value, hvalue, hmembers⟩ := Except.bind_eq_ok.1 hsource
  obtain ⟨others, hothers, hvalues⟩ := Except.bind_eq_ok.1 hmembers
  cases hvalues
  exact ⟨name, value, others, hname, hvalue, hothers, rfl⟩

/-- A member that is not the type does not matter to finding it. -/
theorem tagFind_cons_of_ne {name : String} (hname : name ≠ "type") {nested : Bool}
    {found : Option Tag} {rest : List (String × Json)} :
    Tag.find nested found ((name, value) :: rest) = Tag.find nested found rest := by
  cases found <;> simp only [Tag.find, if_neg hname]

/-- Reading the members of a node finds its type and leaves the others. -/
theorem readMembers_eq_ok {found : Option Tag} {tag : Tag}
    {members : List (Except Failure String × Source)} {values rest : List (String × Json)}
    (h : Source.contentMembers limit members = .ok values) :
    readMembers found limit members = .ok (some tag, rest) ↔
      Tag.find false found values = .ok tag ∧ rest = withoutType values := by
  induction members generalizing found values rest with
  | nil =>
    cases h
    cases found with
    | none => simp [readMembers, Tag.find]
    | some seen => simp [readMembers, Tag.find, withoutType, eq_comm]
  | cons member members ih =>
    obtain ⟨key, source⟩ := member
    obtain ⟨name, value, others, rfl, hvalue, hothers, rfl⟩ := contentMembers_cons h
    have hkey : Except.orFailure (.ok name) = .ok name := rfl
    rw [readMembers.eq_def]
    simp only [hkey, Except.ok_bind]
    by_cases htype : name = "type"
    · have hskip : withoutType ((name, value) :: others) = withoutType others := by
        simp [withoutType, htype]
      rw [Tag.find.eq_def]
      simp only [if_pos htype, hskip]
      cases found with
      | some seen =>
        refine iff_of_false ?_ ?_
        · intro h
          cases h
        · rintro ⟨h, -⟩
          cases h
      | none =>
        simp only [Except.bind_eq_ok, single_tag_eq_ok hvalue, ih hothers]
        refine ⟨?_, ?_⟩
        · rintro ⟨seen, hseen, htag, hrest⟩
          exact ⟨⟨seen, hseen, htag⟩, hrest⟩
        · rintro ⟨⟨seen, hseen, htag⟩, hrest⟩
          exact ⟨seen, hseen, htag, hrest⟩
    · have hkeep : withoutType ((name, value) :: others) = (name, value) :: withoutType others := by
        simp [withoutType, htype]
      have hcontent : Except.orFailure (source.content limit) = .ok value := by
        rw [hvalue]
        rfl
      simp only [if_neg htype, hkeep, hcontent, Except.ok_bind]
      rw [tagFind_cons_of_ne htype, Except.bind_eq_ok]
      refine ⟨?_, ?_⟩
      · rintro ⟨⟨seen, left⟩, hread, hpair⟩
        cases hpair
        obtain ⟨htag, rfl⟩ := (ih hothers).1 hread
        exact ⟨htag, rfl⟩
      · rintro ⟨htag, rfl⟩
        exact ⟨(some tag, withoutType others), (ih hothers).2 ⟨htag, rfl⟩, rfl⟩

/-- From a text in which a document stands the same tree is read as from the document. -/
theorem ofSource_eq_ok {raw : RawTree} (h : source.content limit = .ok value) :
    ofSource limit source = .ok raw ↔ load false value = .ok raw := by
  cases source with
  | null | bool b =>
    cases h
    cases limit <;> exact iff_of_false (fun h => nomatch h) fun h => nomatch h
  | number n =>
    cases n with
    | some n =>
      cases h
      cases limit <;> exact iff_of_false (fun h => nomatch h) fun h => nomatch h
    | none => cases h
  | text t =>
    cases t with
    | ok t =>
      cases h
      cases limit <;> exact iff_of_false (fun h => nomatch h) fun h => nomatch h
    | error f => cases h
  | broken reading skipping => cases h
  | list items stop =>
    cases limit with
    | zero => cases h
    | succ limit =>
      obtain ⟨values, hvalues, hclosed⟩ := Except.bind_eq_ok.1 h
      obtain ⟨rfl, rfl⟩ := Source.closed_eq_ok.1 hclosed
      cases items with
      | nil =>
        cases hvalues
        exact iff_of_false (fun h => nomatch h) fun h => nomatch h
      | cons first items =>
        rw [Source.contentItems] at hvalues
        obtain ⟨tag, htag, hitems⟩ := Except.bind_eq_ok.1 hvalues
        obtain ⟨others, hothers, hcons⟩ := Except.bind_eq_ok.1 hitems
        cases hcons
        have hrest : Except.orFailure (Source.contentItems limit items) = .ok others := by
          rw [hothers]
          rfl
        have hopen : Except.orFailure (Source.closed none ()) = .ok () := rfl
        rw [load_list_eq_ok, ofSource]
        simp only [hrest, hopen, Except.ok_bind, Except.bind_eq_ok, single_tag_eq_ok htag]
        refine exists_congr fun tag => and_congr_right fun _ => ?_
        cases tag <;> exact Except.orFault_eq_ok
  | object members stop =>
    cases limit with
    | zero => cases h
    | succ limit =>
      obtain ⟨values, hvalues, hclosed⟩ := Except.bind_eq_ok.1 h
      obtain ⟨rfl, rfl⟩ := Source.closed_eq_ok.1 hclosed
      have hopen : Except.orFailure (Source.closed none ()) = .ok () := rfl
      rw [load_object_eq_ok, ofSource, Except.bind_eq_ok]
      simp only [hopen, Except.ok_bind]
      refine ⟨?_, ?_⟩
      · rintro ⟨⟨found, rest⟩, hread, hparts⟩
        cases found with
        | none => cases hparts
        | some tag =>
          obtain ⟨hfind, rfl⟩ := (readMembers_eq_ok hvalues).1 hread
          refine ⟨tag, hfind, ?_⟩
          cases tag with
          | operand => exact operandMembers_withoutType.1 (Except.orFault_eq_ok.1 hparts)
          | operator => exact operatorMembers_withoutType.1 (Except.orFault_eq_ok.1 hparts)
      · rintro ⟨tag, hfind, hparts⟩
        refine ⟨(some tag, withoutType values), (readMembers_eq_ok hvalues).2 ⟨hfind, rfl⟩, ?_⟩
        cases tag with
        | operand => exact Except.orFault_eq_ok.2 (operandMembers_withoutType.2 hparts)
        | operator => exact Except.orFault_eq_ok.2 (operatorMembers_withoutType.2 hparts)

end RawTree

/-- A tree is read from a text in which a document stands exactly if the document encodes it. -/
theorem Tree.ofSource_eq_ok {limit : Nat} {source : Source} {value : Json} {tree : Tree}
    (h : source.content limit = .ok value) :
    Tree.ofSource limit source = .ok tree ↔ RawTree.Encodes false value tree.raw := by
  rw [Tree.ofSource, Except.bind_eq_ok, ← RawTree.load_eq_ok_iff, ← RawTree.ofSource_eq_ok h]
  refine ⟨?_, ?_⟩
  · rintro ⟨raw, hread, hresolve⟩
    split at hresolve
    · next found hfound =>
      cases hresolve
      rwa [← RawTree.resolve_eq_ok.1 hfound]
    · cases hresolve
  · intro hread
    refine ⟨tree.raw, hread, ?_⟩
    rw [RawTree.resolve_eq_ok.2 rfl]
    rfl

namespace Tree

/-- **Loading reports the first that fails.** A document that is too deep is reported with its
depth, whatever else it is; one that is not and has not the shape of a tree is a bad document,
whatever words it has for operators; and a document with the shape loads as the tree of that shape,
with its attributes and literals, if all of its operators are supported, and is reported with the
first that is not if there is one. As a part of a record, in a document or in a text, a document is
accepted exactly if it has the shape and supported operators, and is the same tree. -/
theorem load_reports (limit : Nat) (value : Json) :
    (limit < value.sideDepth →
      load limit value = .error (.depthExceeded value.sideDepth limit)) ∧
    (value.sideDepth ≤ limit →
      ((∃ fault, load limit value = .error (.badDocument fault)) ↔
        ¬∃ raw, RawTree.Encodes false value raw) ∧
      ∀ raw, RawTree.Encodes false value raw →
        ((∀ o ∈ raw.operators, o.supported) →
          ∃ tree, load limit value = .ok tree ∧ tree.raw = raw) ∧
        ∀ before o after, raw.operators = before ++ o :: after → (∀ b ∈ before, b.supported) →
          o.supported = false → load limit value = .error (.unsupportedOperator o.word)) ∧
    ∀ tree,
      (Record.treeOfJson value = .ok tree ↔ ∃ raw, RawTree.Encodes false value raw ∧
        (∀ o ∈ raw.operators, o.supported) ∧ tree.raw = raw) ∧
      ∀ (n : Nat) (source : Source), source.content n = .ok value →
        (ofSource n source = .ok tree ↔ Record.treeOfJson value = .ok tree) := by
  refine ⟨load_of_deep, ?_, ?_⟩
  · intro hdepth
    refine ⟨load_eq_badDocument_iff hdepth, ?_⟩
    intro raw hencodes
    rw [load_of_encodes hdepth hencodes]
    refine ⟨?_, ?_⟩
    · intro hsupported
      have hnone := RawTree.firstUnsupported?_eq_none_iff.2 hsupported
      obtain ⟨tree, rfl⟩ := RawTree.exists_tree_of_supported hnone
      exact ⟨tree, RawTree.resolve_eq_ok.2 rfl, rfl⟩
    · intro before o after hsplit hbefore ho
      exact RawTree.resolve_of_unsupported
        (RawTree.firstUnsupported?_eq_some_iff.2 ⟨before, after, hsplit, hbefore, ho⟩)
  · intro tree
    refine ⟨?_, fun n source hsource => ?_⟩
    · rw [Record.treeOfJson_eq_ok]
      refine ⟨?_, ?_⟩
      · intro hencodes
        have hnone := RawTree.firstUnsupported?_raw tree
        exact ⟨tree.raw, hencodes, RawTree.firstUnsupported?_eq_none_iff.1 hnone, rfl⟩
      · rintro ⟨raw, hencodes, -, rfl⟩
        exact hencodes
    · rw [ofSource_eq_ok hsource, Record.treeOfJson_eq_ok]

/-- Two operators that are not supported, under one that is: the one on the left is reported, unless
the limit comes before it. Without its literal the right side comes before both. A condition with a
known comparison is read from a text too. -/
theorem load_reports_leftmost :
    load 1 (.object [("type", .text "operator"), ("operator", .text "AND"),
      ("left", .object [("type", .text "operand"), ("attribute", .text "a"),
        ("operator", .text "!="), ("value", .text "x")]),
      ("right", .list [.text "operand", .text "b", .text ">=", .text "y"])]) =
        .error (.depthExceeded 2 1) ∧
    load 2 (.object [("type", .text "operator"), ("operator", .text "AND"),
      ("left", .object [("type", .text "operand"), ("attribute", .text "a"),
        ("operator", .text "!="), ("value", .text "x")]),
      ("right", .list [.text "operand", .text "b", .text ">=", .text "y"])]) =
        .error (.unsupportedOperator "!=") ∧
    (¬∃ raw, RawTree.Encodes false (.object [("type", .text "operator"), ("operator", .text "AND"),
      ("left", .object [("type", .text "operand"), ("attribute", .text "a"),
        ("operator", .text "!="), ("value", .text "x")]),
      ("right", .list [.text "operand", .text "b", .text ">="])]) raw) ∧
    ofSource 1 (.object [(.ok "type", .text (.ok "operand")), (.ok "attribute", .text (.ok "a")),
      (.ok "operator", .text (.ok "=")), (.ok "value", .text (.ok "x"))] none) =
        .ok (leaf ⟨"a", .equal, .text "x"⟩) := by
  have hencodes : RawTree.Encodes false (.object [("type", .text "operator"),
      ("operator", .text "AND"),
      ("left", .object [("type", .text "operand"), ("attribute", .text "a"),
        ("operator", .text "!="), ("value", .text "x")]),
      ("right", .list [.text "operand", .text "b", .text ">=", .text "y"])])
      (.operator "AND" (.operand "a" "!=" (.text "x")) (.operand "b" ">=" (.text "y"))) :=
    .operatorObject rfl rfl rfl rfl (.operandObject rfl rfl rfl rfl rfl rfl) rfl
      (.operandList rfl rfl)
  have hleaf : RawTree.Encodes false (.object [("type", .text "operand"), ("attribute", .text "a"),
      ("operator", .text "="), ("value", .text "x")]) (.operand "a" "=" (.text "x")) :=
    .operandObject rfl rfl rfl rfl rfl rfl
  refine ⟨(load_reports 1 _).1 (by decide), ?_, ?_, ?_⟩
  · obtain ⟨-, hload⟩ := ((load_reports 2 _).2.1 (by decide)).2 _ hencodes
    exact hload [.connective "AND"] (.comparison "!=") [.comparison ">="] rfl (by decide)
      (by decide)
  · exact ((load_reports 2 _).2.1 (by decide)).1.1 ⟨_, rfl⟩
  · obtain ⟨haccepts, hreads⟩ := (load_reports 1 _).2.2 (leaf ⟨"a", .equal, .text "x"⟩)
    exact (hreads 1 _ rfl).2 (haccepts.2 ⟨_, hleaf, by decide, rfl⟩)

end Tree

end Rulebook
