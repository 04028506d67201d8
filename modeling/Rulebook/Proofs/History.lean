import Mathlib.Data.Finset.Card
import Mathlib.Data.List.Induction
import Mathlib.Data.Set.Card
import Rulebook.Proofs.Running

/-!
# What a store answers after a history

A history is the sequence of all calls that a store has had. A record is alive after a history if
it has been saved and nothing has been saved or deleted under its identifier since
(`StoreCall.Live`). `Storage.Follows` says that all answers are those that the records alive
determine: which record there is under an identifier, how many there are, and the list of all of
them, in the order of their times and then of their identifiers. As no two of them share an
identifier this order leaves nothing open, and the list does not depend on the order in which the
records are kept (`Store.mergeSort_eq_list`). The store follows every history
(`Storage.ofStore_follows`).
-/

namespace Rulebook

/-! ## The order of the list -/

namespace Timestamp

theorem before_iff {a b : Timestamp} :
    a.before b ↔ a.seconds < b.seconds ∨ a.seconds = b.seconds ∧ a.nanos < b.nanos := by
  simp only [before, Bool.or_eq_true, Bool.and_eq_true, decide_eq_true_eq, beq_iff_eq]

theorem before_trans {a b c : Timestamp} (hab : a.before b) (hbc : b.before c) : a.before c := by
  rw [before_iff] at hab hbc ⊢
  omega

theorem before_asymm {a b : Timestamp} (hab : a.before b) : ¬b.before a := by
  rw [before_iff] at hab ⊢
  omega

/-- Of two different timestamps one is before the other. -/
theorem before_or_before {a b : Timestamp} (h : a ≠ b) : a.before b ∨ b.before a := by
  rw [before_iff, before_iff]
  by_contra hnone
  have hseconds : a.seconds = b.seconds := by omega
  have hnanos : a.nanos = b.nanos := by omega
  cases a
  cases b
  cases hseconds
  cases hnanos
  exact h rfl

end Timestamp

namespace Store

/-- One record is listed before another: it is older, or as old and its identifier is smaller. -/
def Precedes (a b : Record) : Prop :=
  a.createdAt.before b.createdAt ∨ a.createdAt = b.createdAt ∧ a.id < b.id

theorem listedBefore_iff {a b : Record} : listedBefore a b ↔
    a.createdAt.before b.createdAt ∨ a.createdAt = b.createdAt ∧ a.id ≤ b.id := by
  unfold listedBefore
  split
  · next heq =>
    have hnot : ¬a.createdAt.before b.createdAt := by
      rw [heq]
      exact fun h => Timestamp.before_asymm h h
    simp only [decide_eq_true_eq, heq, true_and]
    rw [heq] at hnot
    exact ⟨.inr, (Or.resolve_left · hnot)⟩
  · next hne => exact ⟨.inl, (Or.resolve_right · fun h => hne h.1)⟩

theorem listedBefore_trans (a b c : Record) (hab : listedBefore a b) (hbc : listedBefore b c) :
    listedBefore a c := by
  rw [listedBefore_iff] at hab hbc ⊢
  rcases hab with hab | ⟨hab, hid⟩ <;> rcases hbc with hbc | ⟨hbc, hid'⟩
  · exact .inl (Timestamp.before_trans hab hbc)
  · exact .inl (hbc ▸ hab)
  · exact .inl (hab ▸ hbc)
  · exact .inr ⟨hab.trans hbc, String.le_trans hid hid'⟩

theorem listedBefore_total (a b : Record) : listedBefore a b || listedBefore b a := by
  rw [Bool.or_eq_true, listedBefore_iff, listedBefore_iff]
  by_cases h : a.createdAt = b.createdAt
  · exact (String.le_total a.id b.id).imp (fun hid => .inr ⟨h, hid⟩) fun hid => .inr ⟨h.symm, hid⟩
  · exact (Timestamp.before_or_before h).imp .inl .inl

/-- Only records with one identifier can be listed either way. -/
theorem listedBefore_antisymm {a b : Record} (hab : listedBefore a b) (hba : listedBefore b a) :
    a.id = b.id := by
  rw [listedBefore_iff] at hab hba
  rcases hab with hab | ⟨heq, hid⟩ <;> rcases hba with hba | ⟨heq', hid'⟩
  · exact absurd hba (Timestamp.before_asymm hab)
  · rw [heq'] at hab
    exact absurd hab (Timestamp.before_asymm hab)
  · rw [heq] at hba
    exact absurd hba (Timestamp.before_asymm hba)
  · exact String.le_antisymm hid hid'

theorem precedes_of_listedBefore {a b : Record} (h : listedBefore a b) (hne : a.id ≠ b.id) :
    Precedes a b := by
  refine (listedBefore_iff.1 h).imp_right ?_
  rintro ⟨heq, hid⟩
  refine ⟨heq, String.not_le.1 fun hle => hne (String.le_antisymm hid hle)⟩

/-! ## Records of a store -/

variable {s : Store}

theorem nodup_ids (s : Store) : (s.records.map Record.id).Nodup := List.pairwise_map.2 s.distinct

theorem nodup_records (s : Store) : s.records.Nodup := s.nodup_ids.of_map

/-- No two records share an identifier. -/
theorem eq_of_id {a b : Record} (ha : a ∈ s.records) (hb : b ∈ s.records) (h : a.id = b.id) :
    a = b :=
  List.inj_on_of_nodup_map s.nodup_ids ha hb h

/-- A record is found under its identifier exactly if it is kept. -/
theorem get?_eq_some_iff {id : String} {record : Record} :
    s.get? id = some record ↔ record ∈ s.records ∧ record.id = id := by
  have hid {found : Record} (h : s.get? id = some found) : found.id = id := by
    have hfound : found.id == id := List.find?_some (p := fun r : Record => r.id == id) h
    exact beq_iff_eq.1 hfound
  refine ⟨fun h => ⟨List.mem_of_find?_eq_some h, hid h⟩, ?_⟩
  rintro ⟨hmem, hrecord⟩
  have hsome : (s.get? id).isSome := by
    rw [get?, List.find?_isSome]
    exact ⟨record, hmem, beq_iff_eq.2 hrecord⟩
  obtain ⟨found, hfound⟩ := Option.isSome_iff_exists.1 hsome
  have heq := s.eq_of_id (List.mem_of_find?_eq_some hfound) hmem ((hid hfound).trans hrecord.symm)
  rw [hfound, heq]

/-- After deleting there is nothing under the identifier, whether or not there was before. -/
theorem get?_delete_self (s : Store) (id : String) :
    (Repository.ofStore.delete id s).2.get? id = none := by
  cases h : s.get? id with
  | none => rw [delete_absent h, h]
  | some record => rw [delete_present h, get?_erase, if_pos rfl]

theorem sorted_mergeSort (records : List Record) :
    (records.mergeSort listedBefore).Pairwise fun a b => listedBefore a b :=
  List.pairwise_mergeSort listedBefore_trans listedBefore_total records

theorem mem_list {record : Record} : record ∈ s.list ↔ record ∈ s.records :=
  (List.mergeSort_perm ..).mem_iff

/-- The list of a store does not depend on the order in which the records are kept. -/
theorem mergeSort_eq_list {records : List Record} (h : records.Perm s.records) :
    records.mergeSort listedBefore = s.list := by
  have hperm : (records.mergeSort listedBefore).Perm s.list :=
    (List.mergeSort_perm ..).trans (h.trans (List.mergeSort_perm ..).symm)
  -- records that can be listed either way are one record, so there is one sorted order
  refine List.Perm.eq_of_pairwise ?_ (sorted_mergeSort records) (sorted_mergeSort s.records) hperm
  intro a b ha hb hab hba
  exact s.eq_of_id (mem_list.1 (hperm.mem_iff.1 ha)) (mem_list.1 hb) (listedBefore_antisymm hab hba)

/-- The list holds the records in their order. -/
theorem pairwise_list (s : Store) : s.list.Pairwise Precedes := by
  have hdistinct : (s.list.map Record.id).Nodup :=
    ((List.mergeSort_perm s.records listedBefore).map Record.id).nodup_iff.2 s.nodup_ids
  refine ((sorted_mergeSort s.records).and (List.pairwise_map.1 hdistinct)).imp ?_
  rintro a b ⟨hlisted, hne⟩
  exact precedes_of_listedBefore hlisted hne

end Store

/-! ## Calls of a store -/

/-- A repository that also tells at once whether there is a record, and how many there are. -/
structure Storage (σ : Type) extends Repository σ where
  contains : String → σ → Bool
  len : σ → Nat

/-- A call of a storage. -/
inductive StoreCall where
  | save (record : Record)
  | get (id : String)
  | list
  | delete (id : String)
  | contains (id : String)
  | count
  | len

/-- What a call is answered. -/
inductive StoreAnswer where
  | saved (answer : Except Error Unit)
  | found (answer : Except Error (Option Record))
  | listed (answer : Except Error (List Record))
  | deleted (answer : Except Error Unit)
  | contained (answer : Bool)
  | counted (answer : Except Error Nat)
  | length (answer : Nat)

namespace Storage

variable {σ : Type}

/-- What a call is answered, and what it leaves behind. -/
def answer (r : Storage σ) (s : σ) : StoreCall → StoreAnswer × σ
  | .save record => (.saved (r.save record s).1, (r.save record s).2)
  | .get id => (.found (r.get id s).1, (r.get id s).2)
  | .list => (.listed (r.list s).1, (r.list s).2)
  | .delete id => (.deleted (r.delete id s).1, (r.delete id s).2)
  | .contains id => (.contained (r.contains id s), s)
  | .count => (.counted (r.count s).1, (r.count s).2)
  | .len => (.length (r.len s), s)

/-- Makes calls in their order. -/
def run (r : Storage σ) (s : σ) : List StoreCall → List StoreAnswer × σ
  | [] => ([], s)
  | call :: calls =>
    let (first, after) := r.answer s call
    let (answers, last) := run r after calls
    (first :: answers, last)

theorem run_concat (r : Storage σ) (s : σ) (calls : List StoreCall) (call : StoreCall) :
    (r.run s (calls ++ [call])).2 = (r.answer (r.run s calls).2 call).2 := by
  induction calls generalizing s with
  | nil => rfl
  | cons first calls ih => exact ih _

/-- The store with all its calls. -/
def ofStore : Storage Store := { Repository.ofStore with
  contains id s := s.contains id
  len s := s.count }

end Storage

/-! ## What is alive -/

namespace StoreCall

/-- The call saves or deletes under an identifier. -/
def Writes (id : String) : StoreCall → Prop
  | .save record => record.id = id
  | .delete other => other = id
  | _ => False

/-- The record is the one that was saved last under the identifier, and it has not been deleted
since. -/
def Live (history : List StoreCall) (id : String) (record : Record) : Prop :=
  record.id = id ∧ ∃ before after, history = before ++ .save record :: after ∧
    ∀ call ∈ after, ¬call.Writes id

variable {history : List StoreCall} {call : StoreCall} {id : String} {record : Record}

theorem not_live_nil : ¬Live [] id record := by
  rintro ⟨-, before, after, h, -⟩
  exact List.append_ne_nil_of_right_ne_nil before (List.cons_ne_nil _ after) h.symm

/-- A record is alive after one more call if that call saves it, or if it was alive and the call
does not write under its identifier. -/
theorem live_concat : Live (history ++ [call]) id record ↔
    call = .save record ∧ record.id = id ∨ ¬call.Writes id ∧ Live history id record := by
  refine ⟨?_, ?_⟩
  · rintro ⟨hid, before, after, h, hquiet⟩
    -- the call that saves is the last one, or else the last one comes after it
    rcases List.eq_nil_or_concat after with rfl | ⟨middle, last, rfl⟩
    · exact .inl ⟨List.singleton_inj.1 (List.append_inj' h rfl).2, hid⟩
    · rw [List.concat_eq_append] at h hquiet
      rw [← List.cons_append, ← List.append_assoc] at h
      obtain ⟨hhistory, hlast⟩ := List.append_inj' h rfl
      cases hlast
      refine .inr ⟨hquiet call (List.mem_append_right _ (List.mem_singleton_self call)), hid,
        before, middle, hhistory, ?_⟩
      exact fun other hother => hquiet other (List.mem_append_left _ hother)
  · rintro (⟨rfl, hid⟩ | ⟨hcall, hid, before, after, rfl, hquiet⟩)
    · exact ⟨hid, history, [], rfl, fun other hother => nomatch hother⟩
    · refine ⟨hid, before, after ++ [call], by rw [List.append_assoc, List.cons_append], ?_⟩
      intro other hother
      rcases List.mem_append.1 hother with hother | hother
      · exact hquiet other hother
      · rw [List.mem_singleton.1 hother]
        exact hcall

/-- The identifiers under which a record is alive. -/
def liveIds (history : List StoreCall) : Set String := {id | ∃ record, Live history id record}

end StoreCall

open StoreCall

/-- All answers after a history are those that the records alive determine. -/
structure Storage.Follows {σ : Type} (r : Storage σ) (history : List StoreCall) (s : σ) :
    Prop where
  get_live {id : String} {record : Record} : Live history id record →
    (r.get id s).1 = .ok (some record)
  get_dead {id : String} : id ∉ liveIds history → (r.get id s).1 = .ok none
  contains_iff {id : String} : r.contains id s ↔ id ∈ liveIds history
  count_eq : (r.count s).1 = .ok (liveIds history).ncard
  len_eq : r.len s = (liveIds history).ncard
  delete_live {id : String} : id ∈ liveIds history → (r.delete id s).1 = .ok ()
  delete_dead {id : String} : id ∉ liveIds history →
    (r.delete id s).1 = .error (.ruleNotFound id) ∧
      ∀ calls, (r.run (r.delete id s).2 calls).1 = (r.run s calls).1
  list_eq : ∃ records, (r.list s).1 = .ok records ∧ records.Nodup ∧
    (∀ record, record ∈ records ↔ Live history record.id record) ∧
    records.Pairwise Store.Precedes

/-! ## The store follows its history -/

namespace Storage

variable {history : List StoreCall} {id : String} {record : Record}

/-- One call changes what there is under an identifier as it changes what is alive. -/
theorem get?_answer (s : Store) (call : StoreCall) :
    (ofStore.answer s call).2.get? id = some record ↔
      call = .save record ∧ record.id = id ∨ ¬call.Writes id ∧ s.get? id = some record := by
  cases call with
  | save saved =>
    rw [show (ofStore.answer s (.save saved)).2 = s.save saved from rfl, s.get?_save]
    simp only [Writes, StoreCall.save.injEq]
    by_cases hid : saved.id = id
    · simp only [hid, if_true, Option.some.injEq, not_true, false_and, or_false]
      exact ⟨fun h => ⟨h, h ▸ hid⟩, And.left⟩
    · simp only [hid, if_false, not_false_eq_true, true_and]
      exact ⟨.inr, (Or.resolve_left · fun ⟨heq, hrecord⟩ => hid (heq ▸ hrecord))⟩
  | delete other =>
    have hnot : ¬(StoreCall.delete other = .save record ∧ record.id = id) := (nomatch ·.1)
    rw [show (ofStore.answer s (.delete other)).2 = (Repository.ofStore.delete other s).2 from rfl,
      or_iff_right hnot]
    by_cases hid : other = id
    · rw [hid, s.get?_delete_self]
      exact ⟨(nomatch ·), fun h => absurd rfl h.1⟩
    · rw [s.get?_delete hid]
      exact ⟨fun h => ⟨hid, h⟩, And.right⟩
  | _ =>
    exact ⟨fun h => .inr ⟨fun hwrites => hwrites, h⟩, fun h => (h.resolve_left (nomatch ·.1)).2⟩

/-- What there is under an identifier after a history is what is alive. -/
theorem get?_run : (ofStore.run .empty history).2.get? id = some record ↔
    Live history id record := by
  induction history using List.reverseRecOn generalizing id record with
  | nil => exact ⟨fun h => (nomatch h), fun h => absurd h not_live_nil⟩
  | append_singleton history call ih => rw [run_concat, get?_answer, live_concat, ih]

theorem not_mem_liveIds : id ∉ liveIds history ↔
    (ofStore.run .empty history).2.get? id = none := by
  rw [Option.eq_none_iff_forall_ne_some]
  refine ⟨fun h record hrecord => h ⟨record, get?_run.1 hrecord⟩, ?_⟩
  rintro h ⟨record, hlive⟩
  exact h record (get?_run.2 hlive)

/-- There are as many records as identifiers under which one is alive. -/
theorem count_run : (ofStore.run .empty history).2.count = (liveIds history).ncard := by
  have hids : liveIds history =
      ((ofStore.run .empty history).2.records.map Record.id).toFinset := by
    ext id
    simp only [List.coe_toFinset, List.mem_map, Set.mem_ofPred_eq]
    refine exists_congr fun record => ?_
    rw [← get?_run, Store.get?_eq_some_iff]
  rw [hids, Set.ncard_coe_finset, List.toFinset_card_of_nodup (Store.nodup_ids _), List.length_map]
  rfl

/-- **The store follows every history.** -/
theorem ofStore_follows (history : List StoreCall) :
    ofStore.Follows history (ofStore.run .empty history).2 where
  get_live h := congrArg Except.ok (get?_run.2 h)
  get_dead h := congrArg Except.ok (not_mem_liveIds.1 h)
  contains_iff {id} := by
    have hsome : id ∉ liveIds history ↔ _ := not_mem_liveIds
    rw [← Option.not_isSome_iff_eq_none, not_iff_not] at hsome
    exact hsome.symm
  count_eq := congrArg Except.ok count_run
  len_eq := count_run
  delete_live := by
    rintro id ⟨record, hlive⟩
    exact congrArg Prod.fst (Store.delete_present (get?_run.2 hlive))
  delete_dead {id} h := by
    have hdelete := Store.delete_absent (not_mem_liveIds.1 h)
    refine ⟨congrArg Prod.fst hdelete, fun calls => ?_⟩
    exact congrArg (fun s => (ofStore.run s calls).1) (congrArg Prod.snd hdelete)
  list_eq := by
    let s := (ofStore.run .empty history).2
    refine ⟨s.list, rfl, ?_, fun record => ?_, s.pairwise_list⟩
    · exact (List.mergeSort_perm s.records Store.listedBefore).nodup_iff.2 s.nodup_records
    · rw [Store.mem_list, ← get?_run, Store.get?_eq_some_iff]
      exact (and_iff_left rfl).symm

end Storage

end Rulebook
