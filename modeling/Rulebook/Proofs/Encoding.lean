import Rulebook.Rule.Loading
import Rulebook.Proofs.Results

/-!
# Which documents are trees

A node is an object with its parts under their names, each of them once, or a list with its parts
in their order. `Encodes` says so for whole trees, and `load_eq_ok_iff` says that loading accepts
exactly the documents that encode a tree.

The reader of an object goes through the members with the parts it has found so far. `Fills` is
its invariant for one part: either the part is found and no later member names it, or one later
member does and its value is read.
-/

namespace Rulebook

namespace Json

/-- The values of all members with a key. -/
def valuesOf (name : String) (members : List (String × Json)) : List Json :=
  (members.filter fun m => m.1 = name).map Prod.snd

@[simp] theorem valuesOf_cons_self (name : String) (value : Json) (rest : List (String × Json)) :
    valuesOf name ((name, value) :: rest) = value :: valuesOf name rest := by
  simp [valuesOf]

@[simp] theorem valuesOf_cons_of_ne {key name : String} (h : key ≠ name) (value : Json)
    (rest : List (String × Json)) :
    valuesOf name ((key, value) :: rest) = valuesOf name rest := by
  simp [valuesOf, h]

theorem mem_of_valuesOf {name : String} {value : Json} {members : List (String × Json)}
    (h : valuesOf name members = [value]) : (name, value) ∈ members := by
  have hmem : value ∈ valuesOf name members := h ▸ List.mem_cons_self ..
  obtain ⟨m, hm, rfl⟩ := List.mem_map.1 hmem
  obtain ⟨hm, hname⟩ := List.mem_filter.1 hm
  rwa [← of_decide_eq_true hname]

theorem asText_eq_ok {value : Json} {text : String} :
    value.asText = .ok text ↔ value = .text text := by
  refine ⟨?_, ?_⟩
  · intro h
    cases value <;> cases h
    rfl
  · rintro rfl
    rfl

end Json

namespace RawTree

open Json

/-! ## One part of an object -/

/-- A part with the given name is filled: it has been seen and the members do not name it again,
or they name it once and with a value that is read. -/
def Fills {α : Type} (name : String) (read : Json → Except Fault α) (seen : Option α)
    (members : List (String × Json)) (part : α) : Prop :=
  match seen with
  | some found => part = found ∧ valuesOf name members = []
  | none => ∃ value, valuesOf name members = [value] ∧ read value = .ok part

section Fills

variable {α : Type} {name : String} {read : Json → Except Fault α} {seen : Option α} {part : α}

theorem fills_nil : Fills name read seen [] part ↔ required name seen = .ok part := by
  cases seen with
  | none =>
    refine ⟨?_, ?_⟩
    · rintro ⟨value, h, -⟩
      cases h
    · intro h
      cases h
  | some found =>
    refine ⟨?_, ?_⟩
    · rintro ⟨rfl, -⟩
      rfl
    · intro h
      cases h
      exact ⟨rfl, rfl⟩

/-- A member that names the part is taken if it is the first to do so. -/
theorem fills_cons_self {value : Json} {rest : List (String × Json)} :
    Fills name read seen ((name, value) :: rest) part ↔
      ∃ next, once name seen (read value) = .ok next ∧ Fills name read next rest part := by
  cases seen with
  | some found =>
    refine ⟨?_, ?_⟩
    · rintro ⟨-, h⟩
      rw [valuesOf_cons_self] at h
      cases h
    · rintro ⟨next, h, -⟩
      cases h
  | none =>
    rw [Fills, valuesOf_cons_self, once]
    refine ⟨?_, ?_⟩
    · rintro ⟨_, h, hread⟩
      obtain ⟨rfl, hrest⟩ := List.cons.inj h
      rw [hread]
      exact ⟨some part, rfl, rfl, hrest⟩
    · rintro ⟨next, h, hfills⟩
      cases hread : read value with
      | error fault =>
        rw [hread] at h
        cases h
      | ok found =>
        rw [hread] at h
        cases h
        obtain ⟨rfl, hrest⟩ := hfills
        exact ⟨value, by rw [hrest], hread⟩

/-- A member with another name changes nothing. -/
theorem fills_cons_of_ne {key : String} (h : key ≠ name) {value : Json}
    {rest : List (String × Json)} :
    Fills name read seen ((key, value) :: rest) part ↔ Fills name read seen rest part := by
  cases seen <;> simp only [Fills, valuesOf_cons_of_ne h]

end Fills

/-! ## The parts of a node -/

theorem tagFind_eq_ok {nested : Bool} {found : Option Tag} {members : List (String × Json)}
    {tag : Tag} :
    Tag.find nested found members = .ok tag ↔
      Fills "type" (Tag.ofJson nested) found members tag := by
  induction members generalizing found with
  | nil =>
    rw [fills_nil]
    cases found <;> rfl
  | cons member rest ih =>
    obtain ⟨key, value⟩ := member
    rw [Tag.find.eq_def]
    by_cases hkey : key = "type"
    · subst hkey
      rw [fills_cons_self]
      cases found with
      | some seen =>
        simp only [if_true]
        refine ⟨?_, ?_⟩
        · intro h
          cases h
        · rintro ⟨next, h, -⟩
          cases h
      | none =>
        simp only [if_true, once, Except.bind_eq_ok, ih]
        cases Tag.ofJson nested value with
        | error fault => simp [Except.map]
        | ok tag => simp [Except.map]
    · rw [fills_cons_of_ne hkey, ← ih]
      cases found <;> simp only [hkey, if_false]

/-- A loop over members that looks for three parts ends with their node exactly if each of them is
filled. -/
theorem threeParts_eq_ok {α β γ : Type} {name₁ name₂ name₃ : String}
    {read₁ : Json → Except Fault α} {read₂ : Json → Except Fault β} {read₃ : Json → Except Fault γ}
    {node : α → β → γ → RawTree}
    {loop : Option α → Option β → Option γ → List (String × Json) → Except Fault RawTree}
    (h₁₂ : name₁ ≠ name₂) (h₁₃ : name₁ ≠ name₃) (h₂₃ : name₂ ≠ name₃)
    (hnil : ∀ a b c, loop a b c [] = do
      let x ← required name₁ a
      let y ← required name₂ b
      let z ← required name₃ c
      return node x y z)
    (hcons : ∀ a b c key value rest, loop a b c ((key, value) :: rest) =
      if key = name₁ then do loop (← once key a (read₁ value)) b c rest
      else if key = name₂ then do loop a (← once key b (read₂ value)) c rest
      else if key = name₃ then do loop a b (← once key c (read₃ value)) rest
      else loop a b c rest)
    {a : Option α} {b : Option β} {c : Option γ} {members : List (String × Json)} {raw : RawTree} :
    loop a b c members = .ok raw ↔
      ∃ x y z, Fills name₁ read₁ a members x ∧ Fills name₂ read₂ b members y ∧
        Fills name₃ read₃ c members z ∧ raw = node x y z := by
  induction members generalizing a b c with
  | nil =>
    simp only [hnil, fills_nil, Except.bind_eq_ok, Except.pure_eq, Except.ok.injEq]
    refine ⟨?_, ?_⟩
    · rintro ⟨x, hx, y, hy, z, hz, rfl⟩
      exact ⟨x, y, z, hx, hy, hz, rfl⟩
    · rintro ⟨x, y, z, hx, hy, hz, rfl⟩
      exact ⟨x, hx, y, hy, z, hz, rfl⟩
  | cons member rest ih =>
    obtain ⟨key, value⟩ := member
    rw [hcons]
    by_cases h₁ : key = name₁
    · subst h₁
      simp only [if_true, Except.bind_eq_ok, ih, fills_cons_self, fills_cons_of_ne h₁₂,
        fills_cons_of_ne h₁₃]
      refine ⟨?_, ?_⟩
      · rintro ⟨next, hnext, x, y, z, hx, hy, hz, rfl⟩
        exact ⟨x, y, z, ⟨next, hnext, hx⟩, hy, hz, rfl⟩
      · rintro ⟨x, y, z, ⟨next, hnext, hx⟩, hy, hz, rfl⟩
        exact ⟨next, hnext, x, y, z, hx, hy, hz, rfl⟩
    simp only [if_neg h₁, fills_cons_of_ne h₁]
    by_cases h₂ : key = name₂
    · subst h₂
      simp only [if_true, Except.bind_eq_ok, ih, fills_cons_self, fills_cons_of_ne h₂₃]
      refine ⟨?_, ?_⟩
      · rintro ⟨next, hnext, x, y, z, hx, hy, hz, rfl⟩
        exact ⟨x, y, z, hx, ⟨next, hnext, hy⟩, hz, rfl⟩
      · rintro ⟨x, y, z, hx, ⟨next, hnext, hy⟩, hz, rfl⟩
        exact ⟨next, hnext, x, y, z, hx, hy, hz, rfl⟩
    by_cases h₃ : key = name₃
    · subst h₃
      simp only [h₂, if_true, if_false, Except.bind_eq_ok, ih, fills_cons_self,
        fills_cons_of_ne h₂]
      refine ⟨?_, ?_⟩
      · rintro ⟨next, hnext, x, y, z, hx, hy, hz, rfl⟩
        exact ⟨x, y, z, hx, hy, ⟨next, hnext, hz⟩, rfl⟩
      · rintro ⟨x, y, z, hx, hy, ⟨next, hnext, hz⟩, rfl⟩
        exact ⟨next, hnext, x, y, z, hx, hy, hz, rfl⟩
    · simp only [h₂, h₃, if_false, ih, fills_cons_of_ne h₂, fills_cons_of_ne h₃]

theorem operandMembers_eq_ok {members : List (String × Json)} {raw : RawTree} :
    operandMembers none none none members = .ok raw ↔
      ∃ field sign value, Fills "attribute" asText none members field ∧
        Fills "operator" asText none members sign ∧
        Fills "value" Literal.ofJson none members value ∧ raw = .operand field sign value :=
  threeParts_eq_ok (by decide) (by decide) (by decide) (fun _ _ _ => by rw [operandMembers])
    fun _ _ _ _ _ _ => by rw [operandMembers]

theorem operatorMembers_eq_ok {members : List (String × Json)} {raw : RawTree} :
    operatorMembers none none none members = .ok raw ↔
      ∃ word left right, Fills "operator" asText none members word ∧
        Fills "left" (load true) none members left ∧
        Fills "right" (load true) none members right ∧ raw = .operator word left right :=
  threeParts_eq_ok (by decide) (by decide) (by decide) (fun _ _ _ => by rw [operatorMembers])
    fun _ _ _ _ _ _ => by rw [operatorMembers]

/-! ## The parts of a list -/

theorem noMore_eq_ok {extra : List Json} : noMore extra = .ok () ↔ extra = [] := by
  cases extra with
  | nil => exact ⟨fun _ => rfl, fun _ => rfl⟩
  | cons item rest =>
    refine ⟨?_, ?_⟩
    · intro h
      cases h
    · intro h
      cases h

theorem operandItems_eq_ok {items : List Json} {raw : RawTree} :
    operandItems items = .ok raw ↔ ∃ field sign value literal,
      items = [.text field, .text sign, value] ∧ Literal.ofJson value = .ok literal ∧
        raw = .operand field sign literal := by
  refine ⟨?_, ?_⟩
  · intro h
    match items with
    | [] => cases h
    | [field] =>
      obtain ⟨_, -, h⟩ := Except.bind_eq_ok.1 h
      cases h
    | [field, sign] =>
      obtain ⟨_, -, h⟩ := Except.bind_eq_ok.1 h
      obtain ⟨_, -, h⟩ := Except.bind_eq_ok.1 h
      cases h
    | field :: sign :: value :: extra =>
      obtain ⟨f, hf, h⟩ := Except.bind_eq_ok.1 h
      obtain ⟨s, hs, h⟩ := Except.bind_eq_ok.1 h
      obtain ⟨literal, hv, h⟩ := Except.bind_eq_ok.1 h
      obtain ⟨_, hextra, h⟩ := Except.bind_eq_ok.1 h
      cases h
      rw [asText_eq_ok.1 hf, asText_eq_ok.1 hs, noMore_eq_ok.1 hextra]
      exact ⟨f, s, value, literal, rfl, hv, rfl⟩
  · rintro ⟨field, sign, value, literal, rfl, hv, rfl⟩
    simp only [operandItems, asText, Except.ok_bind, hv, noMore, List.isEmpty_nil, if_true,
      Except.pure_eq]

theorem operatorItems_eq_ok {items : List Json} {raw : RawTree} :
    operatorItems items = .ok raw ↔ ∃ word first second left right,
      items = [.text word, first, second] ∧ load true first = .ok left ∧
        load true second = .ok right ∧ raw = .operator word left right := by
  refine ⟨?_, ?_⟩
  · intro h
    match items with
    | [] => cases h
    | [word] =>
      obtain ⟨_, -, h⟩ := Except.bind_eq_ok.1 h
      cases h
    | [word, first] =>
      obtain ⟨_, -, h⟩ := Except.bind_eq_ok.1 h
      obtain ⟨_, -, h⟩ := Except.bind_eq_ok.1 h
      cases h
    | word :: first :: second :: extra =>
      obtain ⟨w, hw, h⟩ := Except.bind_eq_ok.1 h
      obtain ⟨left, hl, h⟩ := Except.bind_eq_ok.1 h
      obtain ⟨right, hr, h⟩ := Except.bind_eq_ok.1 h
      obtain ⟨_, hextra, h⟩ := Except.bind_eq_ok.1 h
      cases h
      rw [asText_eq_ok.1 hw, noMore_eq_ok.1 hextra]
      exact ⟨w, first, second, left, right, rfl, hl, hr, rfl⟩
  · rintro ⟨word, first, second, left, right, rfl, hl, hr, rfl⟩
    simp only [operatorItems, operatorSides, operatorRight, asText, Except.ok_bind, hl, hr, noMore,
      List.isEmpty_nil, if_true, Except.pure_eq]

/-! ## Whole documents -/

/-- The document encodes the tree. A node inside another one (the flag) may have the number of its
type in place of the name. -/
inductive Encodes : Bool → Json → RawTree → Prop where
  /-- an operand as an object: each of its parts stands there once -/
  | operandObject {nested : Bool} {members : List (String × Json)} {tag value : Json}
      {field sign : String} {literal : Literal} :
      valuesOf "type" members = [tag] → Tag.ofJson nested tag = .ok .operand →
      valuesOf "attribute" members = [.text field] → valuesOf "operator" members = [.text sign] →
      valuesOf "value" members = [value] → Literal.ofJson value = .ok literal →
      Encodes nested (.object members) (.operand field sign literal)
  /-- an operator as an object: each of its parts stands there once -/
  | operatorObject {nested : Bool} {members : List (String × Json)} {tag first second : Json}
      {word : String} {left right : RawTree} :
      valuesOf "type" members = [tag] → Tag.ofJson nested tag = .ok .operator →
      valuesOf "operator" members = [.text word] →
      valuesOf "left" members = [first] → Encodes true first left →
      valuesOf "right" members = [second] → Encodes true second right →
      Encodes nested (.object members) (.operator word left right)
  /-- an operand as a list -/
  | operandList {nested : Bool} {tag value : Json} {field sign : String} {literal : Literal} :
      Tag.ofJson nested tag = .ok .operand → Literal.ofJson value = .ok literal →
      Encodes nested (.list [tag, .text field, .text sign, value]) (.operand field sign literal)
  /-- an operator as a list -/
  | operatorList {nested : Bool} {tag first second : Json} {word : String}
      {left right : RawTree} :
      Tag.ofJson nested tag = .ok .operator → Encodes true first left → Encodes true second right →
      Encodes nested (.list [tag, .text word, first, second]) (.operator word left right)

theorem load_object_eq_ok {nested : Bool} {members : List (String × Json)} {raw : RawTree} :
    load nested (.object members) = .ok raw ↔ ∃ tag, Tag.find nested none members = .ok tag ∧
      (match tag with
        | .operand => operandMembers none none none members
        | .operator => operatorMembers none none none members) = .ok raw := by
  rw [load]
  exact Except.bind_eq_ok

theorem load_list_eq_ok {nested : Bool} {first : Json} {items : List Json} {raw : RawTree} :
    load nested (.list (first :: items)) = .ok raw ↔ ∃ tag, Tag.ofJson nested first = .ok tag ∧
      (match tag with
        | .operand => operandItems items
        | .operator => operatorItems items) = .ok raw := by
  rw [load]
  exact Except.bind_eq_ok

/-- What loads encodes the tree. The recursion is on the tree that comes out, which holds what the
sides of a node load as. -/
theorem encodes_of_load {nested : Bool} {value : Json} {raw : RawTree}
    (h : load nested value = .ok raw) : Encodes nested value raw := by
  cases value with
  | object members =>
    obtain ⟨tag, hfind, h⟩ := load_object_eq_ok.1 h
    obtain ⟨_, htype, htag⟩ := tagFind_eq_ok.1 hfind
    cases tag with
    | operand =>
      obtain ⟨_, _, _, ⟨_, hf, hfield⟩, ⟨_, hs, hsign⟩, ⟨_, hv, hvalue⟩, rfl⟩ :=
        operandMembers_eq_ok.1 h
      rw [asText_eq_ok.1 hfield] at hf
      rw [asText_eq_ok.1 hsign] at hs
      exact .operandObject htype htag hf hs hv hvalue
    | operator =>
      obtain ⟨_, _, _, ⟨_, hw, hword⟩, ⟨_, hl, hleft⟩, ⟨_, hr, hright⟩, rfl⟩ :=
        operatorMembers_eq_ok.1 h
      rw [asText_eq_ok.1 hword] at hw
      exact .operatorObject htype htag hw hl (encodes_of_load hleft) hr (encodes_of_load hright)
  | list items =>
    cases items with
    | nil => cases h
    | cons first items =>
      obtain ⟨tag, htag, h⟩ := load_list_eq_ok.1 h
      cases tag with
      | operand =>
        obtain ⟨_, _, _, _, rfl, hvalue, rfl⟩ := operandItems_eq_ok.1 h
        exact .operandList htag hvalue
      | operator =>
        obtain ⟨_, _, _, _, _, rfl, hleft, hright, rfl⟩ := operatorItems_eq_ok.1 h
        exact .operatorList htag (encodes_of_load hleft) (encodes_of_load hright)
  | _ => cases h
termination_by raw

/-- What encodes a tree loads as it. -/
theorem Encodes.load {nested : Bool} {value : Json} {raw : RawTree}
    (h : Encodes nested value raw) : RawTree.load nested value = .ok raw := by
  induction h with
  | operandObject htype htag hf hs hv hvr =>
    exact load_object_eq_ok.2 ⟨.operand, tagFind_eq_ok.2 ⟨_, htype, htag⟩,
      operandMembers_eq_ok.2 ⟨_, _, _, ⟨_, hf, rfl⟩, ⟨_, hs, rfl⟩, ⟨_, hv, hvr⟩, rfl⟩⟩
  | operatorObject htype htag hw hl _ hr _ ihl ihr =>
    exact load_object_eq_ok.2 ⟨.operator, tagFind_eq_ok.2 ⟨_, htype, htag⟩,
      operatorMembers_eq_ok.2 ⟨_, _, _, ⟨_, hw, rfl⟩, ⟨_, hl, ihl⟩, ⟨_, hr, ihr⟩, rfl⟩⟩
  | operandList htag hv =>
    exact load_list_eq_ok.2 ⟨.operand, htag, operandItems_eq_ok.2 ⟨_, _, _, _, rfl, hv, rfl⟩⟩
  | operatorList htag _ _ ihl ihr =>
    exact load_list_eq_ok.2 ⟨.operator, htag,
      operatorItems_eq_ok.2 ⟨_, _, _, _, _, rfl, ihl, ihr, rfl⟩⟩

/-- Loading accepts exactly the documents that encode a tree. -/
theorem load_eq_ok_iff {nested : Bool} {value : Json} {raw : RawTree} :
    load nested value = .ok raw ↔ Encodes nested value raw := ⟨encodes_of_load, Encodes.load⟩

end RawTree

end Rulebook
