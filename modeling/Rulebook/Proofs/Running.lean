import Rulebook.Service.Operations

/-!
# Running programs on the store

What each operation of the service answers and leaves behind when it runs on the store. A program
spares an identifier if it neither saves nor deletes under it; whatever such a program does, the
record under the identifier stays.
-/

namespace Rulebook

/-! ## Records under their identifiers -/

namespace Store

theorem get?_erase (s : Store) (erased id : String) :
    (s.erase erased).get? id = if erased = id then none else s.get? id := by
  rw [get?, erase, List.find?_filter]
  split
  · next h =>
    refine List.find?_eq_none.2 fun r _ => ?_
    simp [h]
  · next h =>
    refine congrArg (List.find? · s.records) (funext fun r => ?_)
    by_cases hid : r.id = id
    · simp [hid, Ne.symm h]
    · simp [hid]

theorem get?_save (s : Store) (r : Record) (id : String) :
    (s.save r).get? id = if r.id = id then some r else s.get? id := by
  by_cases h : r.id = id
  · rw [if_pos h, get?, save, List.find?_cons_of_pos (by simp [h])]
  · rw [if_neg h, get?, save, List.find?_cons_of_neg (by simp [h])]
    exact (get?_erase s r.id id).trans (if_neg h)

/-- What deleting answers and leaves where there is no record. -/
theorem delete_absent {s : Store} {id : String} (h : s.get? id = none) :
    Repository.ofStore.delete id s = (.error (.ruleNotFound id), s) := by
  have hcontains : s.contains id = false := by rw [contains, h, Option.isSome_none]
  simp only [Repository.ofStore, delete, hcontains, Bool.false_eq_true, if_false]

/-- What deleting answers and leaves where there is a record. -/
theorem delete_present {s : Store} {id : String} {record : Record} (h : s.get? id = some record) :
    Repository.ofStore.delete id s = (.ok (), s.erase id) := by
  have hcontains : s.contains id = true := by rw [contains, h, Option.isSome_some]
  simp only [Repository.ofStore, delete, hcontains, if_true]

/-- Whether or not a record is deleted, the others stay. -/
theorem get?_delete (s : Store) {deleted id : String} (h : deleted ≠ id) :
    (Repository.ofStore.delete deleted s).2.get? id = s.get? id := by
  simp only [Repository.ofStore, delete]
  by_cases hfound : s.contains deleted
  · rw [if_pos hfound]
    exact (s.get?_erase deleted id).trans (if_neg h)
  · rw [if_neg hfound]

end Store

/-! ## Programs -/

namespace Program

variable {α β σ : Type}

/-- A program after another runs in the world that the other leaves. -/
theorem run_bind (r : Repository σ) (w : World σ) (p : Program α) (f : α → Program β) :
    (p >>= f).run r w = (f (p.run r w).1).run r (p.run r w).2 := by
  induction p generalizing w with
  | done value => rfl
  | save record next ih => exact ih _ _
  | get id next ih => exact ih _ _
  | list next ih => exact ih _ _
  | delete id next ih => exact ih _ _
  | count next ih => exact ih _ _
  | note event next ih => exact ih _

/-- A sequence succeeds exactly if all of it does. -/
theorem run_orElse_eq_ok {r : Repository σ} {w v : World σ}
    {answer : Except Error α} {f : α → Program (Except Error β)} {value : β} :
    (orElse answer f).run r w = (.ok value, v) ↔
      ∃ found, answer = .ok found ∧ (f found).run r w = (.ok value, v) := by
  cases answer with
  | error e =>
    refine ⟨?_, ?_⟩
    · intro h
      cases h
    · rintro ⟨found, h, -⟩
      cases h
  | ok found =>
    refine ⟨?_, ?_⟩
    · intro h
      exact ⟨found, rfl, h⟩
    · rintro ⟨_, h, hrun⟩
      cases h
      exact hrun

/-- What every step preserves, a run to the end preserves. -/
theorem run_preserves {r : Repository σ} (Inv : Program α → World σ → Prop)
    (hstep : ∀ {p q w v}, Inv p w → p.step? r w = some (q, v) → Inv q v) {p : Program α}
    {w : World σ} (h : Inv p w) : Inv (.done (p.run r w).1) (p.run r w).2 := by
  induction p generalizing w with
  | done value => exact h
  | save record next ih => exact ih _ (hstep h rfl)
  | get id next ih => exact ih _ (hstep h rfl)
  | list next ih => exact ih _ (hstep h rfl)
  | delete id next ih => exact ih _ (hstep h rfl)
  | count next ih => exact ih _ (hstep h rfl)
  | note event next ih => exact ih (hstep h rfl)

/-- The program neither saves nor deletes under the identifier, whatever it is answered. -/
def Spares (id : String) : Program α → Prop
  | .done _ => True
  | .save record next => record.id ≠ id ∧ ∀ answer, (next answer).Spares id
  | .get _ next => ∀ answer, (next answer).Spares id
  | .list next => ∀ answer, (next answer).Spares id
  | .delete other next => other ≠ id ∧ ∀ answer, (next answer).Spares id
  | .count next => ∀ answer, (next answer).Spares id
  | .note _ next => next.Spares id

variable {id : String}

/-- One step of a program that spares an identifier leaves the record under it, and what remains
of the program spares it as well. -/
theorem Spares.step {p q : Program α} {w v : World Store} (h : p.Spares id)
    (hstep : p.step? Repository.ofStore w = some (q, v)) :
    q.Spares id ∧ v.state.get? id = w.state.get? id := by
  cases p with
  | done => cases hstep
  | save record next =>
    cases hstep
    exact ⟨h.2 _, (w.state.get?_save record id).trans (if_neg h.1)⟩
  | delete other next =>
    cases hstep
    exact ⟨h.2 _, w.state.get?_delete h.1⟩
  | note event next =>
    cases hstep
    exact ⟨h, rfl⟩
  | _ =>
    cases hstep
    exact ⟨h _, rfl⟩

/-- A run of a program that spares an identifier leaves the record under it. -/
theorem Spares.get?_run {p : Program α} (h : p.Spares id) (w : World Store) :
    (p.run Repository.ofStore w).2.state.get? id = w.state.get? id := by
  refine (run_preserves
    (fun (q : Program α) (v : World Store) => q.Spares id ∧ v.state.get? id = w.state.get? id) ?_
    ⟨h, rfl⟩).2
  rintro q q' v v' ⟨hspares, hsame⟩ hstep
  obtain ⟨hspares', hstays⟩ := hspares.step hstep
  exact ⟨hspares', hstays.trans hsame⟩

theorem Spares.bind {p : Program α} {f : α → Program β} (h : p.Spares id)
    (hf : ∀ value, (f value).Spares id) : (p >>= f).Spares id := by
  induction p with
  | done value => exact hf value
  | save record next ih => exact ⟨h.1, fun answer => ih answer (h.2 answer)⟩
  | get other next ih => exact fun answer => ih answer (h answer)
  | list next ih => exact fun answer => ih answer (h answer)
  | delete other next ih => exact ⟨h.1, fun answer => ih answer (h.2 answer)⟩
  | count next ih => exact fun answer => ih answer (h answer)
  | note event next ih => exact ih h

theorem Spares.orElse {answer : Except Error α} {f : α → Program (Except Error β)}
    (hf : ∀ value, (f value).Spares id) : (Program.orElse answer f).Spares id := by
  cases answer with
  | ok value => exact hf value
  | error e => trivial

end Program

/-! ## The operations of the service -/

namespace Service

open Program

variable {σ : Type} {s : Settings} {id : String}

/-- Evaluating a tree answers what the tree evaluates to and touches no record. -/
theorem run_evaluateTree (r : Repository σ) (w : World σ) (tree : Tree) (data : Json) :
    (evaluateTree s tree data).run r w = (tree.evaluate s.traced data,
      { w with metrics := w.metrics.note (.evaluated (verdict (tree.evaluate s.traced data))) }) :=
  rfl

/-- A rule that is kept is evaluated as its tree. -/
theorem run_evaluate {w : World Store} {record : Record} (h : w.state.get? id = some record)
    (data : Json) : (evaluate s id data).run Repository.ofStore w =
      (evaluateTree s record.tree data).run Repository.ofStore w := by
  have hfetch : (fetch id).run Repository.ofStore w = (.ok record, w) := by
    rw [fetch, run_bind]
    simp only [find, run, Repository.ofStore, h]
    rfl
  rw [evaluate, run_bind, hfetch]
  rfl

/-- A document that loads is evaluated as its tree. -/
theorem evaluateDocument_of_load {value : Json} {tree : Tree}
    (h : Tree.load s.maxDepth value = .ok tree) (data : Json) :
    evaluateDocument s value data = evaluateTree s tree data := by
  rw [evaluateDocument, h]
  rfl

/-- A rule is created exactly if it can be read, and then its record is kept. -/
theorem run_create_eq_ok {w v : World Store} {now : Timestamp} {rule : String} {record : Record} :
    (create s id now rule).run Repository.ofStore w = (.ok record, v) ↔
      ∃ tree, s.parser.parse rule = .ok tree ∧ record = ⟨id, rule, tree, now⟩ ∧
        v = ⟨w.state.save record,
          (w.metrics.note (.parsed "ok")).note (.stored (w.state.save record).count)⟩ := by
  rw [create]
  cases s.parser.parse rule with
  | error e =>
    refine ⟨?_, ?_⟩
    · intro h
      cases h
    · rintro ⟨tree, h, -⟩
      cases h
  | ok tree =>
    refine ⟨?_, ?_⟩
    · intro h
      cases h
      exact ⟨tree, rfl, rfl, rfl⟩
    · rintro ⟨_, h, rfl, rfl⟩
      cases h
      rfl

/-- The record of a created rule holds the tree that is read from the rule, whatever keeps it. -/
theorem exists_of_run_create {σ : Type} {r : Repository σ} {w v : World σ} {s : Settings}
    {id rule : String} {now : Timestamp} {record : Record}
    (h : (create s id now rule).run r w = (.ok record, v)) :
    ∃ tree, s.parser.parse rule = .ok tree ∧ record = ⟨id, rule, tree, now⟩ := by
  have hrun : (create s id now rule).run r w =
      (orElse (s.parser.parse rule) fun tree => do
        orElse (← keep ⟨id, rule, tree, now⟩) fun _ => noteCount ⟨id, rule, tree, now⟩).run r
        ⟨w.state, w.metrics.note (.parsed (okOrError (s.parser.parse rule)))⟩ := rfl
  rw [hrun, run_orElse_eq_ok] at h
  obtain ⟨tree, hparse, h⟩ := h
  obtain ⟨_, -, h⟩ := run_orElse_eq_ok.1 h
  obtain ⟨_, -, h⟩ := run_orElse_eq_ok.1 h
  cases h
  exact ⟨tree, hparse, rfl⟩

/-- Combining answers what the combiner does and touches no record. -/
theorem run_combine (r : Repository σ) (w : World σ) (rules : List String) :
    (combine s rules).run r w = (s.combiner.combine rules, { w with
      metrics :=
        w.metrics.note (.combined rules.length (okOrError (s.combiner.combine rules))) }) :=
  rfl

end Service

end Rulebook
