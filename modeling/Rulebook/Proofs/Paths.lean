import Mathlib.Data.List.Forall2
import Rulebook.Evaluation.Lookup
import Rulebook.Proofs.Numbers
import Rulebook.Proofs.Positional
import Rulebook.Proofs.Tokens

/-!
# Paths lead to values

A value inside a record is reached by steps: to the member with a key, or to the item at an index
(`Leads`). The segments of a path write steps, and a segment may write two of them, since digits
are a key as well as an index; which one is taken is up to the value that stands there. Looking an
attribute up is then said without any walk: it gives the member with the whole name, and only if
there is none the value that steps written by the segments lead to (`field?_eq_some_iff`).

Two things are needed to find a value again by the path that its steps write. Cutting the path at
its dots must give the steps back, which it does unless a key has a dot itself
(`Text.segments_intercalate`); and the digits of an index must be read as that index, which is so
below the bound that no list exceeds.
-/

namespace Rulebook

/-! ## Cutting at dots -/

namespace Text

/-- A path has a segment, if only an empty one. -/
theorem segments_ne_nil (path : String) : segments path ≠ [] := by
  rw [segments, ne_eq, List.map_eq_nil_iff]
  exact List.splitOn_ne_nil _ _

/-- Names without dots are the segments of the path that joins them. -/
theorem segments_intercalate {names : List String} (hne : names ≠ [])
    (h : ∀ name ∈ names, '.' ∉ name.toList) : segments (".".intercalate names) = names := by
  have hkeep : ∀ piece ∈ names.map String.toList, '.' ∉ piece := List.forall_mem_map.2 h
  have hpieces : names.map String.toList ≠ [] := by simpa using hne
  have hdot : ".".toList = ['.'] := rfl
  rw [segments, String.toList_intercalate, hdot, List.splitOn_intercalate _ hkeep hpieces,
    List.map_map]
  simp

end Text

theorem Json.mem_of_member? {name : String} {value : Json} {members : List (String × Json)}
    (h : member? name members = some value) : (name, value) ∈ members := by
  induction members with
  | nil => cases h
  | cons first rest ih =>
    obtain ⟨key, found⟩ := first
    rw [member?] at h
    split at h
    · next hkey =>
      cases h
      rw [hkey]
      exact List.mem_cons_self ..
    · exact List.mem_cons_of_mem _ (ih h)

namespace Lookup

/-! ## Steps -/

/-- A step down from a value. -/
inductive Step where
  /-- to the member with a key -/
  | key (name : String)
  /-- to the item at an index -/
  | item (index : Nat)

/-- The value that a step leads to, if it is a step from the given one. -/
def Step.take? : Step → Json → Option Json
  | .key name, .object members => Json.member? name members
  | .item index, .list items => items[index]?
  | _, _ => none

/-- The steps lead from the first value to the second. -/
inductive Leads : List Step → Json → Json → Prop where
  | here (value : Json) : Leads [] value value
  | step {first : Step} {rest : List Step} {value next last : Json} :
      first.take? value = some next → Leads rest next last → Leads (first :: rest) value last

/-- How a path writes a step: a key as it is, and an index in digits. -/
def Step.text : Step → String
  | .key name => name
  | .item index => String.ofList (Decimal.toDigits index)

/-- A segment writes an index: in digits, with a plus sign before them or not and with any zeros in
front, and below the bound on indices. -/
def WritesIndex (segment : String) (index : Nat) : Prop :=
  ∃ digits, (segment.toList = digits ∨ segment.toList = '+' :: digits) ∧ digits ≠ [] ∧
    (∀ c ∈ digits, Decimal.isDigit c) ∧ Decimal.ofDigits digits = index ∧ index < indexBound

/-- A segment writes a step. -/
inductive Step.Writes : String → Step → Prop where
  | key (name : String) : Writes name (.key name)
  | item {segment : String} {index : Nat} : WritesIndex segment index → Writes segment (.item index)

/-! ## Indices -/

theorem index?_eq_some_iff {segment : String} {index : Nat} :
    index? segment = some index ↔ WritesIndex segment index := by
  have hread : ∀ digits : List Char,
      (if digits.isEmpty || !digits.all Decimal.isDigit then none
        else if Decimal.ofDigits digits < indexBound then some (Decimal.ofDigits digits)
        else none) = some index ↔
      digits ≠ [] ∧ (∀ c ∈ digits, Decimal.isDigit c) ∧ Decimal.ofDigits digits = index ∧
        index < indexBound := by
    intro digits
    rw [Option.ite_none_left_eq_some, Option.ite_none_right_eq_some, Option.some.injEq]
    simp only [Bool.or_eq_true, List.isEmpty_iff, Bool.not_eq_true', not_or, Bool.not_eq_false,
      List.all_eq_true]
    refine ⟨?_, ?_⟩
    · rintro ⟨⟨hne, hall⟩, hlt, rfl⟩
      exact ⟨hne, hall, rfl, hlt⟩
    · rintro ⟨hne, hall, rfl, hlt⟩
      exact ⟨⟨hne, hall⟩, hlt, rfl⟩
  rw [index?]
  split
  · next digits hplus =>
    -- a plus sign is no digit, so the digits are what follows it
    rw [hread]
    refine ⟨fun h => ⟨digits, .inr hplus, h⟩, ?_⟩
    rintro ⟨others, htext | htext, hothers⟩
    · rw [hplus] at htext
      subst htext
      exact absurd (hothers.2.1 '+' (List.mem_cons_self ..)) (by decide)
    · rw [hplus] at htext
      cases htext
      exact hothers
  · next hplain =>
    rw [hread]
    refine ⟨fun h => ⟨segment.toList, .inl rfl, h⟩, ?_⟩
    rintro ⟨others, htext | htext, hothers⟩
    · rw [htext]
      exact hothers
    · exact absurd htext (hplain others)

/-- The digits of an index write it, if it is below the bound. -/
theorem writesIndex_digits {index : Nat} (h : index < indexBound) :
    WritesIndex (String.ofList (Decimal.toDigits index)) index :=
  ⟨Decimal.toDigits index, .inl String.toList_ofList, Decimal.toDigits_ne_nil index,
    fun _ hc => Decimal.isDigit_of_mem_toDigits hc, Decimal.ofDigits_toDigits index, h⟩

/-! ## Walking -/

theorem step?_eq_some_iff {segment : String} {value next : Json} :
    step? segment value = some next ↔ ∃ step, Step.Writes segment step ∧
      step.take? value = some next := by
  cases value with
  | object members =>
    refine ⟨fun h => ⟨.key segment, .key segment, h⟩, ?_⟩
    rintro ⟨step, hwrites, htake⟩
    cases hwrites with
    | key => exact htake
    | item hindex => cases htake
  | list items =>
    rw [step?, Option.bind_eq_bind, Option.bind_eq_some_iff]
    refine ⟨?_, ?_⟩
    · rintro ⟨index, hindex, hitem⟩
      exact ⟨.item index, .item (index?_eq_some_iff.1 hindex), hitem⟩
    · rintro ⟨step, hwrites, htake⟩
      cases hwrites with
      | key => cases htake
      | item hindex => exact ⟨_, index?_eq_some_iff.2 hindex, htake⟩
  | null | bool _ | number _ | text _ =>
    refine iff_of_false (fun h => nomatch h) ?_
    rintro ⟨step, -, htake⟩
    cases step <;> cases htake

/-- Walking along segments goes by steps that the segments write. -/
theorem walk?_eq_some_iff {segments : List String} {value last : Json} :
    walk? segments value = some last ↔
      ∃ steps, List.Forall₂ Step.Writes segments steps ∧ Leads steps value last := by
  induction segments generalizing value with
  | nil =>
    refine ⟨?_, ?_⟩
    · intro h
      cases h
      exact ⟨[], .nil, .here _⟩
    · rintro ⟨steps, hwrites, hleads⟩
      cases hwrites with
      | nil =>
        cases hleads with
        | here => rfl
  | cons segment rest ih =>
    rw [walk?, Option.bind_eq_bind, Option.bind_eq_some_iff]
    refine ⟨?_, ?_⟩
    · rintro ⟨next, hstep, hwalk⟩
      obtain ⟨first, hfirst, htake⟩ := step?_eq_some_iff.1 hstep
      obtain ⟨steps, hwrites, hleads⟩ := ih.1 hwalk
      exact ⟨first :: steps, .cons hfirst hwrites, .step htake hleads⟩
    · rintro ⟨steps, hwrites, hleads⟩
      cases hwrites with
      | cons hfirst hrest =>
        cases hleads with
        | step htake hleads =>
          exact ⟨_, step?_eq_some_iff.2 ⟨_, hfirst, htake⟩, ih.2 ⟨_, hrest, hleads⟩⟩

/-- An attribute has the value of the member with just that name, or if there is none the value
that its segments lead to. -/
theorem field?_eq_some_iff {record value : Json} {path : String} :
    field? record path = some value ↔ record.get? path = some value ∨
      record.get? path = none ∧ ∃ steps,
        List.Forall₂ Step.Writes (Text.segments path) steps ∧ Leads steps record value := by
  rw [field?, ← walk?_eq_some_iff]
  cases record.get? path with
  | none => simp
  | some found => simp

/-! ## Values at their paths -/

/-- Lists are no longer than indices reach. -/
def Addressable (value : Json) : Prop :=
  ∀ items, .list items ∈ value.subdocuments → items.length ≤ indexBound

/-- What a step leads to stands in the value it leads from. -/
theorem subdocument_of_take {first : Step} {value next : Json}
    (htake : first.take? value = some next) {inner : Json} (hinner : inner ∈ next.subdocuments) :
    inner ∈ value.subdocuments := by
  cases first with
  | key name =>
    cases value with
    | object members =>
      refine List.mem_cons_of_mem _ (Json.mem_memberSubdocuments.2 ⟨(name, next), ?_, hinner⟩)
      exact Json.mem_of_member? htake
    | _ => cases htake
  | item index =>
    cases value with
    | list items =>
      refine List.mem_cons_of_mem _ (Json.mem_itemSubdocuments.2 ⟨next, ?_, hinner⟩)
      exact List.mem_of_getElem? htake
    | _ => cases htake

/-- Where no list is too long, the texts of steps that lead anywhere write them. -/
theorem Leads.writes {steps : List Step} {value last : Json} (h : Leads steps value last)
    (hvalue : Addressable value) : List.Forall₂ Step.Writes (steps.map Step.text) steps := by
  induction h with
  | here => exact .nil
  | @step first rest value next last htake _ ih =>
    refine .cons ?_ (ih fun items hitems => hvalue items (subdocument_of_take htake hitems))
    cases first with
    | key name => exact .key name
    | item index =>
      cases value with
      | list items =>
        have hitem : index < items.length := (List.getElem?_eq_some_iff.1 htake).1
        have hbound : items.length ≤ indexBound := hvalue items (List.mem_cons_self ..)
        exact .item (writesIndex_digits (Nat.lt_of_lt_of_le hitem hbound))
      | _ => cases htake

/-- Steps by keys without dots and by indices are the segments of the path that they write. -/
theorem segments_path {steps : List Step} (hne : steps ≠ [])
    (hkeys : ∀ name, .key name ∈ steps → '.' ∉ name.toList) :
    Text.segments (".".intercalate (steps.map Step.text)) = steps.map Step.text := by
  refine Text.segments_intercalate (by simpa using hne) ?_
  intro name hname
  obtain ⟨first, hfirst, rfl⟩ := List.mem_map.1 hname
  cases first with
  | key name => exact hkeys name hfirst
  | item index =>
    intro hdot
    rw [Step.text, String.toList_ofList] at hdot
    exact absurd (Decimal.isDigit_of_mem_toDigits hdot) (by decide)

/-- A walk from an object begins at one of its members and reads no other. -/
theorem walk?_congr {first : String} {members others : List (String × Json)}
    (h : Json.member? first members = Json.member? first others) (rest : List String) :
    walk? (first :: rest) (.object members) = walk? (first :: rest) (.object others) := by
  rw [walk?, walk?, step?, step?, h]

/-- **Attributes are found by their paths.** A value that steps lead to is found by the path that
they write, unless the record has a member with that whole path for its key, which is then found
instead. Whatever is found is that member, or there is none and steps that the segments write lead
to it. And of an object only the members with the whole path and with its first segment as keys are
looked at. -/
theorem field?_addresses :
    (∀ (record : Json) (steps : List Step) (value : Json), Addressable record → steps ≠ [] →
      (∀ name, .key name ∈ steps → '.' ∉ name.toList) → Leads steps record value →
      field? record (".".intercalate (steps.map Step.text)) =
        match record.get? (".".intercalate (steps.map Step.text)) with
        | some shadowing => some shadowing
        | none => some value) ∧
    (∀ (record value : Json) (path : String), field? record path = some value ↔
      record.get? path = some value ∨
        record.get? path = none ∧ ∃ steps,
          List.Forall₂ Step.Writes (Text.segments path) steps ∧ Leads steps record value) ∧
    ∀ (members others : List (String × Json)) (path : String),
      (∀ key, key = path ∨ (Text.segments path).head? = some key →
        Json.member? key members = Json.member? key others) →
      field? (.object members) path = field? (.object others) path := by
  refine ⟨?_, fun record value path => field?_eq_some_iff, ?_⟩
  · intro record steps value hrecord hne hkeys hleads
    split
    · next shadowing hshadow => exact field?_eq_some_iff.2 (.inl hshadow)
    · next hnone =>
      refine field?_eq_some_iff.2 (.inr ⟨hnone, steps, ?_, hleads⟩)
      rw [segments_path hne hkeys]
      exact hleads.writes hrecord
  · intro members others path h
    have hwhole := h path (.inl rfl)
    rw [field?, field?, Json.get?, Json.get?, hwhole]
    cases Json.member? path others with
    | some value => rfl
    | none =>
      obtain ⟨first, rest, hsegments⟩ := List.exists_cons_of_ne_nil (Text.segments_ne_nil path)
      have hfirst : (Text.segments path).head? = some first := by rw [hsegments]; rfl
      rw [hsegments]
      exact walk?_congr (h first (.inr hfirst)) rest

/-- A path through two objects and a list, and one that a member of the record has for its key; the
third record differs from the first in all members that the path does not name. -/
theorem field?_addresses_nested :
    Addressable (.object [("user", .object [("tags", .list [.text "x",
      .object [("level", .text "gold")]])]), ("user.tags.0", .text "y")]) ∧
    Leads [.key "user", .key "tags", .item 1, .key "level"] (.object [("user", .object [("tags",
      .list [.text "x", .object [("level", .text "gold")]])]), ("user.tags.0", .text "y")])
      (.text "gold") ∧
    field? (.object [("user", .object [("tags", .list [.text "x",
      .object [("level", .text "gold")]])]), ("user.tags.0", .text "y")]) "user.tags.1.level" =
        some (.text "gold") ∧
    field? (.object [("user", .object [("tags", .list [.text "x",
      .object [("level", .text "gold")]])]), ("user.tags.0", .text "y")]) "user.tags.0" =
        some (.text "y") ∧
    field? (.object [("tags", .null), ("user", .object [("tags", .list [.text "x",
      .object [("level", .text "gold")]])])]) "user.tags.1.level" = some (.text "gold") := by
  obtain ⟨hfinds, -, hreads⟩ := field?_addresses
  have haddressable : Addressable (.object [("user", .object [("tags", .list [.text "x",
      .object [("level", .text "gold")]])]), ("user.tags.0", .text "y")]) := by
    intro items hitems
    simp only [Json.subdocuments, Json.memberSubdocuments, Json.itemSubdocuments,
      List.append_nil, List.cons_append, List.nil_append, List.mem_cons, List.not_mem_nil,
      Json.list.injEq, reduceCtorEq, false_or, or_false] at hitems
    rw [hitems]
    decide
  have hgold : Leads [.key "user", .key "tags", .item 1, .key "level"] (.object [("user",
      .object [("tags", .list [.text "x", .object [("level", .text "gold")]])]),
      ("user.tags.0", .text "y")]) (.text "gold") :=
    .step rfl (.step rfl (.step rfl (.step rfl (.here _))))
  have hx : Leads [.key "user", .key "tags", .item 0] (.object [("user",
      .object [("tags", .list [.text "x", .object [("level", .text "gold")]])]),
      ("user.tags.0", .text "y")]) (.text "x") :=
    .step rfl (.step rfl (.step rfl (.here _)))
  have hfound := hfinds _ _ _ haddressable (List.cons_ne_nil _ _) (by simp) hgold
  have hshadowed := hfinds _ _ _ haddressable (List.cons_ne_nil _ _) (by simp) hx
  refine ⟨haddressable, hgold, hfound, hshadowed, Eq.trans (hreads _ _ _ ?_) hfound⟩
  rintro key (rfl | hkey)
  · rfl
  · cases hkey
    rfl

end Lookup

end Rulebook
