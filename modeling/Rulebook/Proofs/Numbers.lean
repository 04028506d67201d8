import Rulebook.Json.Source
import Rulebook.Proofs.Results
import Rulebook.Proofs.Rounding

/-!
# The numbers of documents

The integers of documents have at most 64 bits, and the other numbers are finite. Reading keeps to
this: a number beyond the range is refused where it stands in the text, so that no source holds
one, and neither does the document that is made from the source (`Json.inRange_read`).
-/

namespace Rulebook

/-- An integer of 64 bits, with or without a sign, or a finite number: what the text of a document
can say and what a document is made of. -/
def Number.InRange : Number → Prop
  | .int n => -(Nat.pow 2 63 : Int) ≤ n ∧ n < Nat.pow 2 64
  | .real x => x.isFinite

/-- The integers of documents are far below the largest number. -/
theorem Number.InRange.log2_le {n : Int} (h : (int n).InRange) : n.natAbs.log2 ≤ 1022 := by
  obtain ⟨hlow, hhigh⟩ := h
  have hlt : n.natAbs < 2 ^ 65 := by
    simp only [Nat.pow_eq] at hlow hhigh
    omega
  rcases Nat.eq_zero_or_pos n.natAbs with hzero | hpos
  · rw [hzero, Nat.log2_zero]
    exact Nat.zero_le _
  · have := (Nat.log2_lt (Nat.ne_of_gt hpos)).2 hlt
    omega

/-- On the binary64 line the number of a document is finite. -/
theorem Number.InRange.isFinite {n : Number} (h : n.InRange) : n.toBinary64.isFinite := by
  cases n with
  | real x => exact h
  | int n => exact Binary64.isFinite_ofInt h.log2_le

namespace Json

mutual

/-- The document itself and every document inside it. -/
def subdocuments : Json → List Json
  | .list items => .list items :: itemSubdocuments items
  | .object members => .object members :: memberSubdocuments members
  | value => [value]

/-- The documents among and inside items. -/
def itemSubdocuments : List Json → List Json
  | [] => []
  | item :: items => item.subdocuments ++ itemSubdocuments items

/-- The documents among and inside the values of members. -/
def memberSubdocuments : List (String × Json) → List Json
  | [] => []
  | (_, value) :: rest => value.subdocuments ++ memberSubdocuments rest

end

/-- Every number in the document is one that documents can hold. -/
def InRange (value : Json) : Prop := ∀ n, .number n ∈ value.subdocuments → n.InRange

theorem mem_itemSubdocuments {value : Json} {items : List Json} :
    value ∈ itemSubdocuments items ↔ ∃ item ∈ items, value ∈ item.subdocuments := by
  induction items with
  | nil => simp [itemSubdocuments]
  | cons item items ih => simp [itemSubdocuments, ih]

theorem mem_memberSubdocuments {value : Json} {members : List (String × Json)} :
    value ∈ memberSubdocuments members ↔ ∃ m ∈ members, value ∈ m.2.subdocuments := by
  induction members with
  | nil => simp [memberSubdocuments]
  | cons member rest ih => simp [memberSubdocuments, ih]

/-- A list is in range if its items are. -/
theorem inRange_list {items : List Json} :
    (Json.list items).InRange ↔ ∀ item ∈ items, item.InRange := by
  refine ⟨fun h item hitem n hn => ?_, fun h n hn => ?_⟩
  · exact h n (List.mem_cons_of_mem _ (mem_itemSubdocuments.2 ⟨item, hitem, hn⟩))
  · rcases List.mem_cons.1 hn with hn | hn
    · cases hn
    · obtain ⟨item, hitem, hn⟩ := mem_itemSubdocuments.1 hn
      exact h item hitem n hn

/-- An object is in range if the values of its members are. -/
theorem inRange_object {members : List (String × Json)} :
    (Json.object members).InRange ↔ ∀ m ∈ members, m.2.InRange := by
  refine ⟨fun h m hm n hn => ?_, fun h n hn => ?_⟩
  · exact h n (List.mem_cons_of_mem _ (mem_memberSubdocuments.2 ⟨m, hm, hn⟩))
  · rcases List.mem_cons.1 hn with hn | hn
    · cases hn
    · obtain ⟨m, hm, hn⟩ := mem_memberSubdocuments.1 hn
      exact h m hm n hn

end Json

/-! ## Numbers in sources -/

namespace Source

mutual

/-- The numbers of a source, as far as they can be read. -/
def numbers : Source → List Number
  | .number (some n) => [n]
  | .list items _ => itemNumbers items
  | .object members _ => memberNumbers members
  | _ => []

/-- The numbers of items. -/
def itemNumbers : List Source → List Number
  | [] => []
  | item :: items => item.numbers ++ itemNumbers items

/-- The numbers of members. -/
def memberNumbers : List (Except Failure String × Source) → List Number
  | [] => []
  | (_, value) :: rest => value.numbers ++ memberNumbers rest

end

/-- All numbers that are read are in range. -/
def Sound (numbers : List Number) : Prop := ∀ n ∈ numbers, n.InRange

theorem sound_nil : Sound [] := fun _ h => nomatch h

theorem Sound.append {a b : List Number} (ha : Sound a) (hb : Sound b) : Sound (a ++ b) :=
  fun n hn => (List.mem_append.1 hn).elim (ha n) (hb n)

theorem sound_number {value : Option Number} (h : ∀ n, value = some n → n.InRange) :
    Sound (Source.number value).numbers := by
  cases value with
  | none => exact sound_nil
  | some n =>
    intro m hm
    rw [List.mem_singleton.1 hm]
    exact h n rfl

/-- Every number that is not an integer is finite where it is read. -/
theorem inRange_real {negative : Bool} {d : Decimal} {n : Number} (h : real negative d = some n) :
    n.InRange := by
  obtain ⟨m, -, rfl⟩ := Option.map_eq_some_iff.1 h
  rfl

/-- Only digits that fit are taken in. -/
theorem takeWhole_digits_le {n : Nat} (h : n ≤ Decimal.maxDigits) (digits : List Char) :
    (Decimal.takeWhole n digits).digits ≤ Decimal.maxDigits := by
  induction digits generalizing n with
  | nil => exact h
  | cons c rest ih =>
    rw [Decimal.takeWhole]
    split
    · next hfits => exact ih hfits
    · exact h

theorem inRange_integer {negative : Bool} {d : Decimal} {n : Number}
    (hd : d.digits ≤ Decimal.maxDigits) (h : integer negative d = some n) : n.InRange := by
  have hfits : d.digits < Nat.pow 2 64 := Nat.lt_of_le_of_lt hd (by decide)
  rw [integer] at h
  split at h
  · exact inRange_real h
  · split at h
    · split at h
      · exact inRange_real h
      · cases h
        refine ⟨?_, ?_⟩
        all_goals omega
    · cases h
      refine ⟨?_, ?_⟩
      all_goals omega

theorem sound_readExponent (negative : Bool) (d : Decimal) (rest : List Text.Symbol) :
    Sound (readExponent negative d rest).1.numbers := by
  have hreal : ∀ d, Sound (Source.number (real negative d)).numbers :=
    fun d => sound_number fun n => inRange_real
  unfold readExponent
  split
  · split
    · -- with a minus sign, with a plus sign and without a sign
      split
      all_goals
        dsimp only
        split
        · exact sound_nil
        · exact hreal _
    · exact hreal d
  · exact hreal d

theorem sound_readUnsigned (negative : Bool) (ss : List Text.Symbol) :
    Sound (readUnsigned negative ss).1.numbers := by
  have hinteger (digits : List Char) :
      Sound (Source.number (integer negative (Decimal.takeWhole 0 digits))).numbers :=
    sound_number fun n => inRange_integer (takeWhole_digits_le (Nat.zero_le _) digits)
  rw [readUnsigned]
  dsimp only
  split
  · exact sound_nil
  · exact sound_nil
  · split
    · split
      · exact sound_nil
      · exact sound_readExponent _ _ _
    · split
      · exact sound_readExponent _ _ _
      · exact hinteger _
    · exact hinteger _

theorem sound_closeNumber {read : Source × List Text.Symbol} (h : Sound read.1.numbers) :
    Sound (closeNumber read).1.numbers := by
  rw [closeNumber.eq_def]
  split
  · exact sound_nil
  · exact h

theorem sound_readWord (value : Source) (h : Sound value.numbers) (word : List Char)
    (ss : List Text.Symbol) : Sound (readWord value word ss).1.numbers := by
  induction word generalizing ss with
  | nil => exact h
  | cons w word ih =>
    cases ss with
    | nil => exact sound_nil
    | cons s rest =>
      rw [readWord]
      split
      · exact ih rest
      · exact sound_nil

/-- Reading any part of a text with so much fuel gives sound numbers only. -/
structure SoundAt (fuel : Nat) : Prop where
  value (ss : List Text.Symbol) : Sound (readValue fuel ss).1.numbers
  items (first : Bool) (ss : List Text.Symbol) : Sound (itemNumbers (readItems fuel first ss).1)
  item (ss : List Text.Symbol) : Sound (itemNumbers (readItem fuel ss).1)
  members (first : Bool) (ss : List Text.Symbol) :
    Sound (memberNumbers (readMembers fuel first ss).1)
  member (ss : List Text.Symbol) : Sound (memberNumbers (readMember fuel ss).1)

theorem soundAt_zero : SoundAt 0 where
  value _ := sound_nil
  items _ _ := sound_nil
  item _ := sound_nil
  members _ _ := sound_nil
  member _ := sound_nil

theorem SoundAt.succ {fuel : Nat} (h : SoundAt fuel) : SoundAt (fuel + 1) where
  value ss := by
    rw [readValue.eq_def]
    dsimp only
    split
    · exact sound_nil
    · exact sound_readWord .null sound_nil _ _
    · exact sound_readWord (.bool true) sound_nil _ _
    · exact sound_readWord (.bool false) sound_nil _ _
    · exact sound_closeNumber (sound_readUnsigned _ _)
    · split
      all_goals exact sound_nil
    · exact h.items true _
    · exact h.members true _
    · split
      · exact sound_closeNumber (sound_readUnsigned _ _)
      · exact sound_nil
    · exact sound_nil
  items first ss := by
    rw [readItems.eq_def]
    dsimp only
    split
    · exact sound_nil
    · exact sound_nil
    · split
      · exact sound_nil
      · split
        · exact sound_nil
        · exact sound_nil
        · exact h.item _
    · split
      · exact h.item _
      · exact sound_nil
  item ss := by
    have hvalue := h.value ss
    rw [readItem.eq_def]
    dsimp only
    split
    · next item heq =>
      rw [heq] at hvalue
      exact hvalue.append sound_nil
    · next item rest heq =>
      rw [heq] at hvalue
      exact hvalue.append (h.items false rest)
  members first ss := by
    rw [readMembers.eq_def]
    dsimp only
    split
    · exact sound_nil
    · exact sound_nil
    · split
      · exact sound_nil
      · split
        · exact sound_nil
        · exact h.member _
        · exact sound_nil
    · split
      · exact h.member _
      · exact sound_nil
    · exact sound_nil
  member ss := by
    rw [readMember.eq_def]
    dsimp only
    split
    · exact sound_nil
    · split
      · exact sound_nil
      · next text _ =>
        have hvalue := h.value text
        split
        · next value heq =>
          rw [heq] at hvalue
          exact hvalue.append sound_nil
        · next value rest heq =>
          rw [heq] at hvalue
          exact hvalue.append (h.members false rest)
      · exact sound_nil

/-- **No source holds a number out of range.** -/
theorem sound_ofSymbols (ss : List Text.Symbol) : Sound (ofSymbols ss).1.numbers := by
  have hall : ∀ fuel, SoundAt fuel := by
    intro fuel
    induction fuel with
    | zero => exact soundAt_zero
    | succ fuel ih => exact ih.succ
  exact (hall _).value _

/-! ## Documents of sources -/

theorem closed_eq_ok {α : Type} {stop : Option Failure} {value found : α} :
    closed stop value = .ok found ↔ stop = none ∧ found = value := by
  cases stop with
  | none => exact ⟨fun h => ⟨rfl, (Except.ok.inj h).symm⟩, fun ⟨_, h⟩ => congrArg _ h.symm⟩
  | some f => exact ⟨fun h => (nomatch h), fun h => (nomatch h.1)⟩

mutual

/-- The document of a source whose numbers are in range is in range. -/
theorem inRange_content {limit : Nat} {source : Source} {value : Json}
    (hsound : Sound source.numbers) (h : source.content limit = .ok value) : value.InRange := by
  match limit, source with
  | _, .null =>
    cases h
    exact fun n hn => nomatch List.mem_singleton.1 hn
  | _, .bool b =>
    cases h
    exact fun n hn => nomatch List.mem_singleton.1 hn
  | _, .number (some m) =>
    cases h
    intro n hn
    cases List.mem_singleton.1 hn
    exact hsound m (List.mem_cons_self ..)
  | _, .number none => cases h
  | _, .text (.ok t) =>
    cases h
    exact fun n hn => nomatch List.mem_singleton.1 hn
  | _, .text (.error f) => cases h
  | _, .broken r s => cases h
  | 0, .list items stop => cases h
  | 0, .object members stop => cases h
  | limit + 1, .list items stop =>
    rw [content] at h
    obtain ⟨values, hvalues, h⟩ := Except.bind_eq_ok.1 h
    rw [(closed_eq_ok.1 h).2, Json.inRange_list]
    exact inRange_contentItems hsound hvalues
  | limit + 1, .object members stop =>
    rw [content] at h
    obtain ⟨values, hvalues, h⟩ := Except.bind_eq_ok.1 h
    rw [(closed_eq_ok.1 h).2, Json.inRange_object]
    exact inRange_contentMembers hsound hvalues

theorem inRange_contentItems {limit : Nat} {items : List Source} {values : List Json}
    (hsound : Sound (itemNumbers items)) (h : contentItems limit items = .ok values) :
    ∀ value ∈ values, value.InRange := by
  match items with
  | [] =>
    cases h
    exact fun value hvalue => nomatch hvalue
  | item :: items =>
    rw [contentItems] at h
    obtain ⟨first, hfirst, h⟩ := Except.bind_eq_ok.1 h
    obtain ⟨rest, hrest, h⟩ := Except.bind_eq_ok.1 h
    cases h
    intro value hvalue
    rcases List.mem_cons.1 hvalue with rfl | hvalue
    · exact inRange_content (fun n hn => hsound n (List.mem_append_left _ hn)) hfirst
    · exact inRange_contentItems (fun n hn => hsound n (List.mem_append_right _ hn)) hrest value
        hvalue

theorem inRange_contentMembers {limit : Nat} {members : List (Except Failure String × Source)}
    {values : List (String × Json)} (hsound : Sound (memberNumbers members))
    (h : contentMembers limit members = .ok values) : ∀ m ∈ values, m.2.InRange := by
  match members with
  | [] =>
    cases h
    exact fun m hm => nomatch hm
  | (key, source) :: members =>
    rw [contentMembers] at h
    obtain ⟨name, hname, h⟩ := Except.bind_eq_ok.1 h
    obtain ⟨first, hfirst, h⟩ := Except.bind_eq_ok.1 h
    obtain ⟨rest, hrest, h⟩ := Except.bind_eq_ok.1 h
    cases h
    intro m hm
    rcases List.mem_cons.1 hm with rfl | hm
    · exact inRange_content (fun n hn => hsound n (List.mem_append_left _ hn)) hfirst
    · exact inRange_contentMembers (fun n hn => hsound n (List.mem_append_right _ hn)) hrest m hm

end

end Source

/-! ## Documents with sorted members -/

namespace Json

theorem mem_insertMember {key : String} {value : Json} {members : List (String × Json)}
    {m : String × Json} (h : m ∈ insertMember key value members) :
    m = (key, value) ∨ m ∈ members := by
  induction members with
  | nil => exact .inl (List.mem_singleton.1 h)
  | cons first rest ih =>
    obtain ⟨name, found⟩ := first
    rw [insertMember] at h
    split at h
    · exact (List.mem_cons.1 h).imp_right (List.mem_cons_of_mem _)
    · split at h
      · exact List.mem_cons.1 h
      · rcases List.mem_cons.1 h with h | h
        · exact .inr (h ▸ List.mem_cons_self ..)
        · exact (ih h).imp_right (List.mem_cons_of_mem _)

/-- Sorting adds no member. -/
theorem mem_sortMembers {members : List (String × Json)} {m : String × Json}
    (h : m ∈ sortMembers members) : m ∈ members := by
  have hfold : ∀ sorted : List (String × Json),
      m ∈ members.foldl (fun sorted m => insertMember m.1 m.2 sorted) sorted →
        m ∈ sorted ∨ m ∈ members := by
    clear h
    induction members with
    | nil => exact fun sorted h => .inl h
    | cons first rest ih =>
      intro sorted h
      rcases ih _ h with h | h
      · rcases mem_insertMember h with rfl | h
        · exact .inr (List.mem_cons_self ..)
        · exact .inl h
      · exact .inr (List.mem_cons_of_mem _ h)
  exact (hfold [] h).resolve_left (List.not_mem_nil ·)

mutual

/-- Sorting the members of objects keeps a document in range. -/
theorem inRange_canonical {value : Json} (h : value.InRange) : value.canonical.InRange := by
  match value with
  | .null | .bool _ | .number _ | .text _ => exact h
  | .list items =>
    rw [canonical, inRange_list]
    exact inRange_canonicalItems (inRange_list.1 h)
  | .object members =>
    rw [canonical, inRange_object]
    exact fun m hm => inRange_canonicalMembers (inRange_object.1 h) m (mem_sortMembers hm)

theorem inRange_canonicalItems {items : List Json} (h : ∀ item ∈ items, item.InRange) :
    ∀ item ∈ canonicalItems items, item.InRange := by
  match items with
  | [] => exact fun item hitem => nomatch hitem
  | first :: items =>
    intro item hitem
    rcases List.mem_cons.1 hitem with rfl | hitem
    · exact inRange_canonical (h _ (List.mem_cons_self ..))
    · exact inRange_canonicalItems (fun other hother => h other (List.mem_cons_of_mem _ hother))
        item hitem

theorem inRange_canonicalMembers {members : List (String × Json)}
    (h : ∀ m ∈ members, m.2.InRange) : ∀ m ∈ canonicalMembers members, m.2.InRange := by
  match members with
  | [] => exact fun m hm => nomatch hm
  | (key, value) :: members =>
    intro m hm
    rcases List.mem_cons.1 hm with rfl | hm
    · exact inRange_canonical (h (key, value) (List.mem_cons_self ..))
    · exact inRange_canonicalMembers (fun other hother => h other (List.mem_cons_of_mem _ hother))
        m hm

end

/-- **Documents that are read are in range.** -/
theorem inRange_read {limit : Nat} {text : String} {value : Json}
    (h : readWithin limit text = .ok value) : value.InRange := by
  rw [readWithin] at h
  obtain ⟨found, hfound, h⟩ := Except.bind_eq_ok.1 h
  obtain ⟨_, -, h⟩ := Except.bind_eq_ok.1 h
  cases h
  exact inRange_canonical (Source.inRange_content (Source.sound_ofSymbols _) hfound)

end Json

end Rulebook
