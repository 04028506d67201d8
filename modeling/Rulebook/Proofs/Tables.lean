import Rulebook.Proofs.History

/-!
# Stores over hash tables

A store may keep its records in a hash table, each under its identifier. All that is asked of the
table is that it is a map and that going through it meets each entry once, in whatever order
(`Table.Lawful`). Every entry of such a store has the identifier of its record as its key, so that
the table and the store of records hold the same (`Table.Holds`), and one call after another they
answer the same: in particular the list is the same whatever the order of the table.

A store can be cloned, and clones share one table. So all calls through any clones of a store are
one history, and the store follows it (`clones_follow_history`).
-/

namespace Rulebook

/-! ## Tables -/

/-- A table of records under keys. -/
structure Table (τ : Type) where
  empty : τ
  get? : String → τ → Option Record
  insert : String → Record → τ → τ
  /-- the entry that is removed, and the table without it -/
  remove : String → τ → Option (String × Record) × τ
  containsKey : String → τ → Bool
  len : τ → Nat
  /-- all entries, in the order in which the table goes through them -/
  entries : τ → List (String × Record)

namespace Table

variable {τ : Type} {T : Table τ}

/-- The table is a map, and going through it meets each entry once. -/
structure Lawful (T : Table τ) : Prop where
  get?_empty (key : String) : T.get? key T.empty = none
  get?_insert (key other : String) (record : Record) (t : τ) :
    T.get? other (T.insert key record t) = if key = other then some record else T.get? other t
  removed (key : String) (t : τ) : (T.remove key t).1 = (T.get? key t).map (key, ·)
  get?_remove (key other : String) (t : τ) :
    T.get? other (T.remove key t).2 = if key = other then none else T.get? other t
  containsKey_eq (key : String) (t : τ) : T.containsKey key t = (T.get? key t).isSome
  mem_entries {key : String} {record : Record} {t : τ} :
    (key, record) ∈ T.entries t ↔ T.get? key t = some record
  nodup_entries (t : τ) : (T.entries t).Nodup
  len_eq (t : τ) : T.len t = (T.entries t).length

/-- The table holds the records of the store, each under its identifier. -/
def Holds (T : Table τ) (t : τ) (s : Store) : Prop := ∀ id, T.get? id t = s.get? id

end Table

/-- A store over a table. -/
def Storage.ofTable {τ : Type} (T : Table τ) : Storage τ where
  save record t := (.ok (), T.insert record.id record t)
  get id t := (.ok (T.get? id t), t)
  list t := (.ok (((T.entries t).map Prod.snd).mergeSort Store.listedBefore), t)
  delete id t :=
    match T.remove id t with
    | (some _, after) => (.ok (), after)
    | (none, after) => (.error (.ruleNotFound id), after)
  count t := (.ok (T.len t), t)
  contains id t := T.containsKey id t
  len t := T.len t

namespace Table

variable {τ : Type} {T : Table τ} {t : τ} {s : Store}

theorem Lawful.holds_empty (hT : T.Lawful) : T.Holds T.empty .empty := hT.get?_empty

/-- Every key is the identifier of its record, so that the entries are the records of the store in
some order. -/
theorem Lawful.entries_perm (hT : T.Lawful) (h : T.Holds t s) :
    ((T.entries t).map Prod.snd).Perm s.records := by
  have hkey {key : String} {record : Record} (hmem : (key, record) ∈ T.entries t) :
      record ∈ s.records ∧ record.id = key := by
    rw [hT.mem_entries, h] at hmem
    exact Store.get?_eq_some_iff.1 hmem
  -- entries of one record have one key, so no record is met twice
  have hnodup : ((T.entries t).map Prod.snd).Nodup := by
    refine (hT.nodup_entries t).map_on ?_
    rintro ⟨key, record⟩ hmem ⟨other, _⟩ hother rfl
    rw [← (hkey hmem).2, ← (hkey hother).2]
  refine (List.perm_ext_iff_of_nodup hnodup s.nodup_records).2 fun record => ?_
  rw [List.mem_map]
  refine ⟨?_, fun hmem => ?_⟩
  · rintro ⟨⟨key, _⟩, hmem, rfl⟩
    exact (hkey hmem).1
  · refine ⟨(record.id, record), hT.mem_entries.2 ?_, rfl⟩
    rw [h]
    exact Store.get?_eq_some_iff.2 ⟨hmem, rfl⟩

theorem Lawful.len_eq_count (hT : T.Lawful) (h : T.Holds t s) : T.len t = s.count := by
  rw [hT.len_eq, ← List.length_map (f := Prod.snd), (hT.entries_perm h).length_eq]
  rfl

/-- Deleting is answered by the table as by the store. -/
theorem Lawful.delete (hT : T.Lawful) (h : T.Holds t s) (id : String) :
    ((Storage.ofTable T).delete id t).1 = (Storage.ofStore.delete id s).1 ∧
      T.Holds ((Storage.ofTable T).delete id t).2 (Storage.ofStore.delete id s).2 := by
  have hafter : ((Storage.ofTable T).delete id t).2 = (T.remove id t).2 := by
    simp only [Storage.ofTable]
    split <;> next heq => rw [heq]
  refine ⟨?_, fun other => ?_⟩
  · have hremoved := hT.removed id t
    simp only [Storage.ofTable, Storage.ofStore]
    cases hfound : s.get? id with
    | none =>
      rw [h, hfound, Option.map_none] at hremoved
      rw [Store.delete_absent hfound]
      split
      · next heq =>
        rw [heq] at hremoved
        cases hremoved
      · rfl
    | some record =>
      rw [h, hfound, Option.map_some] at hremoved
      rw [Store.delete_present hfound]
      split
      · rfl
      · next heq =>
        rw [heq] at hremoved
        cases hremoved
  · rw [hafter, hT.get?_remove, h]
    by_cases hid : id = other
    · rw [if_pos hid, ← hid]
      exact (s.get?_delete_self id).symm
    · rw [if_neg hid]
      exact (s.get?_delete hid).symm

/-- One call is answered by the table as by the store, and then they hold the same again. -/
theorem Lawful.answer (hT : T.Lawful) (h : T.Holds t s) (call : StoreCall) :
    ((Storage.ofTable T).answer t call).1 = (Storage.ofStore.answer s call).1 ∧
      T.Holds ((Storage.ofTable T).answer t call).2 (Storage.ofStore.answer s call).2 := by
  cases call with
  | save record =>
    refine ⟨rfl, fun id => ?_⟩
    simp only [Storage.answer, Storage.ofTable, Storage.ofStore, Repository.ofStore]
    rw [hT.get?_insert, s.get?_save, h]
  | get id =>
    refine ⟨?_, h⟩
    simp only [Storage.answer, Storage.ofTable, Storage.ofStore, Repository.ofStore, h id]
  | list =>
    refine ⟨?_, h⟩
    simp only [Storage.answer, Storage.ofTable, Storage.ofStore, Repository.ofStore,
      Store.mergeSort_eq_list (hT.entries_perm h)]
  | delete id =>
    obtain ⟨hanswer, hholds⟩ := hT.delete h id
    exact ⟨congrArg StoreAnswer.deleted hanswer, hholds⟩
  | contains id =>
    refine ⟨?_, h⟩
    simp only [Storage.answer, Storage.ofTable, Storage.ofStore, Store.contains,
      hT.containsKey_eq, h id]
  | count =>
    refine ⟨?_, h⟩
    simp only [Storage.answer, Storage.ofTable, Storage.ofStore, Repository.ofStore,
      hT.len_eq_count h]
  | len =>
    refine ⟨?_, h⟩
    simp only [Storage.answer, Storage.ofTable, Storage.ofStore, hT.len_eq_count h]

/-- All calls are answered by the table as by the store. -/
theorem Lawful.run (hT : T.Lawful) (h : T.Holds t s) (calls : List StoreCall) :
    ((Storage.ofTable T).run t calls).1 = (Storage.ofStore.run s calls).1 ∧
      T.Holds ((Storage.ofTable T).run t calls).2 (Storage.ofStore.run s calls).2 := by
  induction calls generalizing t s with
  | nil => exact ⟨rfl, h⟩
  | cons call calls ih =>
    obtain ⟨hfirst, hafter⟩ := hT.answer h call
    obtain ⟨hanswers, hlast⟩ := ih hafter
    exact ⟨congrArg₂ List.cons hfirst hanswers, hlast⟩

/-- A table follows the history that the store follows with the same records. -/
theorem Lawful.follows (hT : T.Lawful) (h : T.Holds t s) {history : List StoreCall}
    (hs : Storage.ofStore.Follows history s) : (Storage.ofTable T).Follows history t := by
  have hanswer (call : StoreCall) := (hT.answer h call).1
  have hget (id : String) : ((Storage.ofTable T).get id t).1 = (Storage.ofStore.get id s).1 :=
    StoreAnswer.found.inj (hanswer (.get id))
  have hdelete (id : String) :
      ((Storage.ofTable T).delete id t).1 = (Storage.ofStore.delete id s).1 :=
    StoreAnswer.deleted.inj (hanswer (.delete id))
  have hlist : ((Storage.ofTable T).list t).1 = (Storage.ofStore.list s).1 :=
    StoreAnswer.listed.inj (hanswer .list)
  refine ⟨fun hlive => (hget _).trans (hs.get_live hlive),
    fun hdead => (hget _).trans (hs.get_dead hdead), ?_, ?_, ?_,
    fun hlive => (hdelete _).trans (hs.delete_live hlive), ?_, ?_⟩
  · intro id
    have hcontains : (Storage.ofTable T).contains id t = Storage.ofStore.contains id s :=
      StoreAnswer.contained.inj (hanswer (.contains id))
    rw [hcontains]
    exact hs.contains_iff
  · exact (StoreAnswer.counted.inj (hanswer .count)).trans hs.count_eq
  · exact (StoreAnswer.length.inj (hanswer .len)).trans hs.len_eq
  · intro id hdead
    obtain ⟨hnotFound, hsame⟩ := hs.delete_dead hdead
    refine ⟨(hdelete id).trans hnotFound, fun calls => ?_⟩
    rw [(hT.run (hT.delete h id).2 calls).1, hsame, (hT.run h calls).1]
  · rw [hlist]
    exact hs.list_eq

end Table

/-! ## Clones -/

/-- Clones of stores: each holds the address of its table. -/
structure Clones (σ : Type) where
  tables : List σ
  addresses : List Nat

/-- Something done with clones. -/
inductive CloneCall where
  /-- make one more clone of the clone with a number -/
  | clone (number : Nat)
  /-- a call through the clone with a number -/
  | through (number : Nat) (call : StoreCall)

namespace Clones

variable {σ : Type}

/-- A store that has not been cloned. -/
def single (s : σ) : Clones σ := ⟨[s], [0]⟩

/-- A clone has the address of what it is cloned from; a call changes the table at the address of
its clone. What refers to a clone that there is not does nothing. -/
def step (r : Storage σ) (c : Clones σ) : CloneCall → Option StoreAnswer × Clones σ
  | .clone number =>
    match c.addresses[number]? with
    | some address => (none, { c with addresses := c.addresses ++ [address] })
    | none => (none, c)
  | .through number call =>
    match c.addresses[number]?.bind fun address => c.tables[address]?.map (address, ·) with
    | some (address, s) =>
      let (answer, after) := r.answer s call
      (some answer, { c with tables := c.tables.set address after })
    | none => (none, c)

/-- One thing after another. -/
def run (r : Storage σ) (c : Clones σ) : List CloneCall → List StoreAnswer × Clones σ
  | [] => ([], c)
  | first :: rest =>
    let (answer, after) := c.step r first
    let (answers, last) := run r after rest
    (answer.toList ++ answers, last)

/-- The calls that are made through any of the clones, of which there are so many before. -/
def history (clones : Nat) : List CloneCall → List StoreCall
  | [] => []
  | .clone number :: rest => history (if number < clones then clones + 1 else clones) rest
  | .through number call :: rest =>
    if number < clones then call :: history clones rest else history clones rest

/-- Clones of one store share its table, so that their calls are one history of it. -/
theorem run_replicate (r : Storage σ) (s : σ) (clones : Nat) (calls : List CloneCall) :
    ∃ total, run r ⟨[s], List.replicate clones 0⟩ calls =
      ((r.run s (history clones calls)).1,
        ⟨[(r.run s (history clones calls)).2], List.replicate total 0⟩) := by
  induction calls generalizing s clones with
  | nil => exact ⟨clones, rfl⟩
  | cons first rest ih =>
    cases first with
    | clone number =>
      by_cases hnumber : number < clones
      · obtain ⟨total, hrun⟩ := ih s (clones + 1)
        refine ⟨total, ?_⟩
        simp only [run, step, history, List.getElem?_replicate, hnumber, if_true,
          ← List.replicate_succ', hrun, Option.toList_none, List.nil_append]
      · obtain ⟨total, hrun⟩ := ih s clones
        refine ⟨total, ?_⟩
        simp only [run, step, history, List.getElem?_replicate, hnumber, if_false, hrun,
          Option.toList_none, List.nil_append]
    | through number call =>
      by_cases hnumber : number < clones
      · obtain ⟨total, hrun⟩ := ih (r.answer s call).2 clones
        refine ⟨total, ?_⟩
        simp only [run, step, history, List.getElem?_replicate, hnumber, if_true,
          Option.bind_some, List.getElem?_cons_zero, Option.map_some, List.set_cons_zero, hrun,
          Option.toList_some, List.singleton_append, Storage.run]
      · obtain ⟨total, hrun⟩ := ih s clones
        refine ⟨total, ?_⟩
        simp only [run, step, history, List.getElem?_replicate, hnumber, if_false,
          Option.bind_none, hrun, Option.toList_none, List.nil_append]

end Clones

/-! ## All histories -/

/-- **A store over a table follows every history of its clones.** Whatever is done with clones of
a new store over a lawful table, in whatever order the table goes through its entries, the calls
are answered as by the store of records, and so are all later calls: by the records that the
history has left alive. -/
theorem clones_follow_history {τ : Type} {T : Table τ} (hT : T.Lawful) (calls : List CloneCall) :
    let history := Clones.history 1 calls
    let outcome := Clones.run (Storage.ofTable T) (.single T.empty) calls
    outcome.1 = (Storage.ofStore.run .empty history).1 ∧
      Storage.ofStore.Follows history (Storage.ofStore.run .empty history).2 ∧
      ∃ t, outcome.2.tables = [t] ∧ (∀ address ∈ outcome.2.addresses, address = 0) ∧
        (Storage.ofTable T).Follows history t := by
  obtain ⟨total, hrun⟩ := Clones.run_replicate (Storage.ofTable T) T.empty 1 calls
  obtain ⟨hanswers, hholds⟩ := hT.run hT.holds_empty (Clones.history 1 calls)
  have hstore := Storage.ofStore_follows (Clones.history 1 calls)
  rw [List.replicate_one] at hrun
  rw [Clones.single]
  simp only [hrun]
  exact ⟨hanswers, hstore, _, rfl, fun _ h => List.eq_of_mem_replicate h, hT.follows hholds hstore⟩

/-- The table of a hash map. -/
def Table.ofHashMap : Table (Std.HashMap String Record) where
  empty := ∅
  get? key t := t[key]?
  insert key record t := t.insert key record
  remove key t := (t[key]?.map (key, ·), t.erase key)
  containsKey key t := t.contains key
  len t := t.size
  entries t := t.toList

theorem Table.ofHashMap_lawful : Table.ofHashMap.Lawful where
  get?_empty key := Std.HashMap.getElem?_empty
  get?_insert key other record t := by
    simp only [ofHashMap, Std.HashMap.getElem?_insert, beq_iff_eq]
  removed key t := rfl
  get?_remove key other t := by simp only [ofHashMap, Std.HashMap.getElem?_erase, beq_iff_eq]
  containsKey_eq key t := Std.HashMap.contains_eq_isSome_getElem?
  mem_entries := Std.HashMap.mem_toList_iff_getElem?_eq_some
  nodup_entries t := Std.HashMap.distinct_keys_toList.imp fun hne heq => by
    rw [heq, beq_self_eq_true] at hne
    cases hne
  len_eq t := Std.HashMap.length_toList.symm

/-- Two records of one time, the first one saved again through a clone, over a hash map. -/
theorem clones_follow_history_hashed :
    let record (id rule : String) : Record := ⟨id, rule, .leaf ⟨"a", .equal, .text "x"⟩, ⟨0, 0⟩⟩
    let calls : List CloneCall := [.clone 0, .through 0 (.save (record "b" "a = x")),
      .through 1 (.save (record "a" "a = x")), .through 1 (.save (record "b" "(a = x)")),
      .through 0 .list, .through 1 (.delete "a"), .through 0 (.delete "a")]
    Table.ofHashMap.Lawful ∧
      let history := Clones.history 1 calls
      let outcome := Clones.run (Storage.ofTable .ofHashMap) (.single Table.ofHashMap.empty) calls
      outcome.1 = (Storage.ofStore.run .empty history).1 ∧
        Storage.ofStore.Follows history (Storage.ofStore.run .empty history).2 ∧
        ∃ t, outcome.2.tables = [t] ∧ (∀ address ∈ outcome.2.addresses, address = 0) ∧
          (Storage.ofTable Table.ofHashMap).Follows history t := by
  intro record calls
  exact ⟨Table.ofHashMap_lawful, clones_follow_history Table.ofHashMap_lawful calls⟩

end Rulebook
