import Mathlib.Data.Set.Insert
import Rulebook.Proofs.Running

/-!
# What a failed write leaves behind

Creating and deleting a rule each change the repository by one call and then ask it how many rules
there are. Either call may fail, and so may reading the rule before them; `run_create_eq_error` and
`run_delete_eq_error` list all ways to fail. In a repository whose failing calls change nothing, a
write that fails has nevertheless changed the records exactly if its first call changed them and
the question for their number failed (`failed_write_changes_records_iff`). The caller is then told
of a failure although the rule is kept, or gone.
-/

namespace Rulebook

/-! ## Repositories that fail safely -/

/-- Whatever call fails leaves the records as they were. What `kept` sees of a state are the records
that the repository keeps in it; all else in the state may decide when calls fail. -/
structure Repository.FailsSafely {σ : Type} (r : Repository σ) (kept : σ → Set Record) : Prop where
  save {record : Record} {s : σ} {e : Error} :
    (r.save record s).1 = .error e → kept (r.save record s).2 = kept s
  get {id : String} {s : σ} {e : Error} : (r.get id s).1 = .error e → kept (r.get id s).2 = kept s
  list {s : σ} {e : Error} : (r.list s).1 = .error e → kept (r.list s).2 = kept s
  delete {id : String} {s : σ} {e : Error} :
    (r.delete id s).1 = .error e → kept (r.delete id s).2 = kept s
  count {s : σ} {e : Error} : (r.count s).1 = .error e → kept (r.count s).2 = kept s

namespace Repository

/-- The records of a store. -/
def recordsOf (s : Store) : Set Record := {record | record ∈ s.records}

/-- A record that was not there is one more. -/
theorem recordsOf_save_ne {s : Store} {record : Record} (h : record ∉ s.records) :
    recordsOf (s.save record) ≠ recordsOf s := by
  intro heq
  have hmem : record ∈ recordsOf (s.save record) := List.mem_cons_self ..
  rw [heq] at hmem
  exact h hmem

/-- The store fails only where there is nothing to delete, and then it stays as it is. -/
theorem failsSafely_ofStore : ofStore.FailsSafely recordsOf where
  save h := by cases h
  get h := by cases h
  list h := by cases h
  delete {id s e} h := by
    simp only [ofStore] at h ⊢
    cases hdelete : s.delete id with
    | ok after =>
      rw [hdelete] at h
      cases h
    | error e' => rfl
  count h := by cases h

/-- A call that is down does nothing, and one that is not does what it did before. -/
theorem guarded_cases {σ α : Type} (down : List CallName) (name : CallName)
    (call : σ → Except Error α × σ) (s : σ) :
    guarded down name call s = (.error (unavailable name), s) ∨
      guarded down name call s = call s := by
  unfold guarded
  split
  · exact .inl rfl
  · exact .inr rfl

/-- A call that fails safely does so in an outage as well. -/
theorem guarded_failsSafely {σ α : Type} {kept : σ → Set Record} {down : List CallName}
    {name : CallName} {call : σ → Except Error α × σ} {s : σ} {e : Error}
    (hcall : (call s).1 = .error e → kept (call s).2 = kept s)
    (h : (guarded down name call s).1 = .error e) : kept (guarded down name call s).2 = kept s := by
  rcases guarded_cases down name call s with hdown | hup
  · rw [hdown]
  · rw [hup] at h ⊢
    exact hcall h

/-- An outage adds only failures that do nothing. -/
theorem FailsSafely.withOutage {σ : Type} {r : Repository σ} {kept : σ → Set Record}
    (h : r.FailsSafely kept) (down : List CallName) : (withOutage down r).FailsSafely kept where
  save := guarded_failsSafely h.save
  get := guarded_failsSafely h.get
  list := guarded_failsSafely h.list
  delete := guarded_failsSafely h.delete
  count := guarded_failsSafely h.count

end Repository

/-! ## All ways to fail -/

namespace Program

variable {σ α β : Type} {r : Repository σ} {w v : World σ} {e : Error}

/-- A sequence fails where its first step has failed, or later. -/
theorem run_orElse_eq_error {answer : Except Error α} {f : α → Program (Except Error β)} :
    (orElse answer f).run r w = (.error e, v) ↔
      (answer = .error e ∧ v = w) ∨
        ∃ value, answer = .ok value ∧ (f value).run r w = (.error e, v) := by
  cases answer with
  | error e' =>
    refine ⟨?_, ?_⟩
    · intro h
      cases h
      exact .inl ⟨rfl, rfl⟩
    · rintro (⟨h, rfl⟩ | ⟨value, h, -⟩)
      · cases h
        rfl
      · cases h
  | ok value =>
    refine ⟨?_, ?_⟩
    · intro h
      exact .inr ⟨value, rfl, h⟩
    · rintro (⟨h, -⟩ | ⟨_, h, hrun⟩)
      · cases h
      · cases h
        exact hrun

end Program

namespace Service

open Program

variable {σ : Type} {r : Repository σ} {w v : World σ} {e : Error}

/-- After a change the number of records is asked for and noted. This fails exactly if the question
does. -/
theorem run_noteCount_eq_error {α : Type} {value : α} :
    (noteCount value).run r w = (.error e, v) ↔
      (r.count w.state).1 = .error e ∧ v = ⟨(r.count w.state).2, w.metrics⟩ := by
  have hrun : (noteCount value).run r w =
      (orElse (r.count w.state).1 fun n => do tell (.stored n); return .ok value).run r
        ⟨(r.count w.state).2, w.metrics⟩ := rfl
  rw [hrun, run_orElse_eq_error]
  refine or_iff_left ?_
  rintro ⟨n, -, h⟩
  cases h

/-- What is left of a write once the repository has answered to the change fails if the change did,
or else if the question for the number of records does. -/
theorem run_changed_eq_error {α : Type} {answer : Except Error Unit} {value : α} :
    (orElse answer fun _ => noteCount value).run r w = (.error e, v) ↔
      (answer = .error e ∧ v = w) ∨
      (answer = .ok () ∧ (r.count w.state).1 = .error e ∧
        v = ⟨(r.count w.state).2, w.metrics⟩) := by
  rw [run_orElse_eq_error]
  refine or_congr_right ⟨?_, ?_⟩
  · rintro ⟨⟨⟩, hanswer, h⟩
    exact ⟨hanswer, run_noteCount_eq_error.1 h⟩
  · rintro ⟨hanswer, h⟩
    exact ⟨(), hanswer, run_noteCount_eq_error.2 h⟩

/-- A rule is not created if it cannot be read, or is not saved, or is saved but the number of rules
is not told. -/
theorem run_create_eq_error {s : Settings} {id rule : String} {now : Timestamp} :
    (create s id now rule).run r w = (.error e, v) ↔
      (s.parser.parse rule = .error e ∧ v = ⟨w.state, w.metrics.note (.parsed "error")⟩) ∨
      ∃ tree, s.parser.parse rule = .ok tree ∧
        (((r.save ⟨id, rule, tree, now⟩ w.state).1 = .error e ∧
            v = ⟨(r.save ⟨id, rule, tree, now⟩ w.state).2, w.metrics.note (.parsed "ok")⟩) ∨
          ((r.save ⟨id, rule, tree, now⟩ w.state).1 = .ok () ∧
            (r.count (r.save ⟨id, rule, tree, now⟩ w.state).2).1 = .error e ∧
            v = ⟨(r.count (r.save ⟨id, rule, tree, now⟩ w.state).2).2,
              w.metrics.note (.parsed "ok")⟩)) := by
  have hrun : (create s id now rule).run r w =
      (orElse (s.parser.parse rule) fun tree => do
        orElse (← keep ⟨id, rule, tree, now⟩) fun _ => noteCount ⟨id, rule, tree, now⟩).run r
        ⟨w.state, w.metrics.note (.parsed (okOrError (s.parser.parse rule)))⟩ := rfl
  rw [hrun, run_orElse_eq_error]
  refine or_congr (and_congr_right fun hparse => ?_)
    (exists_congr fun tree => and_congr_right fun hparse => ?_)
  · rw [hparse]
    rfl
  · rw [hparse]
    exact run_changed_eq_error

/-- A rule is not deleted if the repository refuses, or deletes it but does not tell the number of
rules. -/
theorem run_delete_eq_error {id : String} :
    (delete id).run r w = (.error e, v) ↔
      ((r.delete id w.state).1 = .error e ∧ v = ⟨(r.delete id w.state).2, w.metrics⟩) ∨
      ((r.delete id w.state).1 = .ok () ∧
        (r.count (r.delete id w.state).2).1 = .error e ∧
        v = ⟨(r.count (r.delete id w.state).2).2, w.metrics⟩) :=
  run_changed_eq_error

/-! ## What a failure leaves -/

/-- **A failed write has changed the records exactly if the change itself went well.** In a
repository whose failing calls change nothing, a rule that is not created or not deleted for some
reason leaves the records as they were, unless its record was saved, or deleted, and only the
number of the records was not told after that. -/
theorem failed_write_changes_records_iff {kept : σ → Set Record} (hr : r.FailsSafely kept)
    (w : World σ) :
    (∀ (s : Settings) (id : String) (now : Timestamp) (rule : String) (e : Error),
      (∃ v, (create s id now rule).run r w = (.error e, v) ∧ kept v.state ≠ kept w.state) ↔
        ∃ tree, s.parser.parse rule = .ok tree ∧
          (r.save ⟨id, rule, tree, now⟩ w.state).1 = .ok () ∧
          kept (r.save ⟨id, rule, tree, now⟩ w.state).2 ≠ kept w.state ∧
          (r.count (r.save ⟨id, rule, tree, now⟩ w.state).2).1 = .error e) ∧
    ∀ (id : String) (e : Error),
      (∃ v, (delete id).run r w = (.error e, v) ∧ kept v.state ≠ kept w.state) ↔
        (r.delete id w.state).1 = .ok () ∧ kept (r.delete id w.state).2 ≠ kept w.state ∧
          (r.count (r.delete id w.state).2).1 = .error e := by
  refine ⟨fun s id now rule e => ⟨?_, ?_⟩, fun id e => ⟨?_, ?_⟩⟩
  · rintro ⟨v, hrun, hchanged⟩
    rcases run_create_eq_error.1 hrun with ⟨-, rfl⟩ | ⟨tree, hparse, hsaved⟩
    · exact absurd rfl hchanged
    · rcases hsaved with ⟨hsave, rfl⟩ | ⟨hsave, hcount, rfl⟩
      · exact absurd (hr.save hsave) hchanged
      · -- asking how many there are has changed nothing, so it was the saving
        rw [hr.count hcount] at hchanged
        exact ⟨tree, hparse, hsave, hchanged, hcount⟩
  · rintro ⟨tree, hparse, hsave, hchanged, hcount⟩
    refine ⟨_, run_create_eq_error.2 (.inr ⟨tree, hparse, .inr ⟨hsave, hcount, rfl⟩⟩), ?_⟩
    rw [hr.count hcount]
    exact hchanged
  · rintro ⟨v, hrun, hchanged⟩
    rcases run_delete_eq_error.1 hrun with ⟨hdelete, rfl⟩ | ⟨hdelete, hcount, rfl⟩
    · exact absurd (hr.delete hdelete) hchanged
    · rw [hr.count hcount] at hchanged
      exact ⟨hdelete, hchanged, hcount⟩
  · rintro ⟨hdelete, hchanged, hcount⟩
    refine ⟨_, run_delete_eq_error.2 (.inr ⟨hdelete, hcount, rfl⟩), ?_⟩
    rw [hr.count hcount]
    exact hchanged

/-- A repository that cannot tell how many rules it has keeps the rule that it does not create. -/
theorem failed_write_changes_records_uncounted :
    (Repository.withOutage [.count] Repository.ofStore).FailsSafely Repository.recordsOf ∧
    ∃ v, (create {} "r" ⟨0, 0⟩ "a = x").run (Repository.withOutage [.count] Repository.ofStore)
        ⟨.empty, .empty⟩ = (.error (Repository.unavailable .count), v) ∧
      Repository.recordsOf v.state ≠ Repository.recordsOf .empty := by
  have hsafe := Repository.failsSafely_ofStore.withOutage [.count]
  have hparse : ({} : Settings).parser.parse "a = x" = .ok (.leaf ⟨"a", .equal, .text "x"⟩) := rfl
  exact ⟨hsafe, ((failed_write_changes_records_iff hsafe ⟨.empty, .empty⟩).1 _ _ _ _ _).2
    ⟨_, hparse, rfl, Repository.recordsOf_save_ne List.not_mem_nil, rfl⟩⟩

/-- Writes that fail and are done all the same: all failing calls change nothing, yet a rule that
is not created is kept, and one that is not deleted is gone. -/
theorem writes_fail_and_are_done :
    (Repository.withOutage [.count] Repository.ofStore).FailsSafely Repository.recordsOf ∧
    (create {} "r" ⟨0, 0⟩ "a = x").run (Repository.withOutage [.count] Repository.ofStore)
        ⟨.empty, .empty⟩ =
      (.error (Repository.unavailable .count),
        ⟨Store.empty.save ⟨"r", "a = x", .leaf ⟨"a", .equal, .text "x"⟩, ⟨0, 0⟩⟩,
          Metrics.empty.note (.parsed "ok")⟩) ∧
    (delete "r").run (Repository.withOutage [.count] Repository.ofStore)
        ⟨Store.empty.save ⟨"r", "a = x", .leaf ⟨"a", .equal, .text "x"⟩, ⟨0, 0⟩⟩, .empty⟩ =
      (.error (Repository.unavailable .count), ⟨.empty, .empty⟩) ∧
    Repository.recordsOf (Store.empty.save
        ⟨"r", "a = x", .leaf ⟨"a", .equal, .text "x"⟩, ⟨0, 0⟩⟩) ≠
      Repository.recordsOf .empty :=
  ⟨Repository.failsSafely_ofStore.withOutage _, rfl, rfl,
    Repository.recordsOf_save_ne List.not_mem_nil⟩

end Service

end Rulebook
