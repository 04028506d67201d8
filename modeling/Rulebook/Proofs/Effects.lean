import Rulebook.Proofs.Calls

/-!
# What calls do to a store

On a store a call of the service runs in one way only. What it is answered, what it leaves in the
store and which events it notes are functions of the settings, the call and the store that it finds
(`Call.run_program`), and the seven operations of the service are not unfolded again after this.

A call notes nothing of what it does not get to: a rule that cannot be read is not stored, and a
tree that is not found or does not load is not evaluated (`Call.executed?`).
-/

namespace Rulebook

/-- The record under an identifier, which must be there. -/
def Store.demand (s : Store) (id : String) : Except Error Record :=
  match s.get? id with
  | some record => .ok record
  | none => .error (.ruleNotFound id)

namespace Service

open Program

variable (s : Settings) (kept : Store)

/-- What the evaluation gives that a call gets to, if it gets to one. -/
def Call.executed? : Call → Option (Except Error Outcome)
  | .evaluate id data => (kept.get? id).map fun record => record.tree.evaluate s.traced data
  | .evaluateDocument value data =>
    match Tree.load s.maxDepth value with
    | .ok tree => some (tree.evaluate s.traced data)
    | .error _ => none
  | _ => none

/-- What a call is answered. -/
def Call.answerOn : Call → Answer
  | .create id now rule =>
    .record ((s.parser.parse rule).map fun tree => ⟨id, rule, tree, now⟩)
  | .combine rules => .tree (s.combiner.combine rules)
  | .evaluate id data =>
    .outcome (kept.demand id >>= fun record => record.tree.evaluate s.traced data)
  | .evaluateDocument value data =>
    .outcome (Tree.load s.maxDepth value >>= fun tree => tree.evaluate s.traced data)
  | .fetch id => .record (kept.demand id)
  | .list => .records (.ok kept.list)
  | .delete id => .deleted ((kept.demand id).map fun _ => ())

/-- What a call leaves in the store. -/
def Call.storeAfter : Call → Store
  | .create id now rule =>
    match s.parser.parse rule with
    | .ok tree => kept.save ⟨id, rule, tree, now⟩
    | .error _ => kept
  | .delete id =>
    match kept.get? id with
    | some _ => kept.erase id
    | none => kept
  | _ => kept

/-- What a call notes of itself, if anything. -/
def Call.event? : Call → Option Metrics.Event
  | .create _ _ rule => some (.parsed (okOrError (s.parser.parse rule)))
  | .combine rules => some (.combined rules.length (okOrError (s.combiner.combine rules)))
  | call => (call.executed? s kept).map fun result => .evaluated (verdict result)

/-- How many rules there are after a call that has created or deleted one. -/
def Call.counted? : Call → Option Nat
  | .create id now rule =>
    match s.parser.parse rule with
    | .ok tree => some (kept.save ⟨id, rule, tree, now⟩).count
    | .error _ => none
  | .delete id => (kept.get? id).map fun _ => (kept.erase id).count
  | _ => none

/-- The events that a call notes, in their order. -/
def Call.events (call : Call) : List Metrics.Event :=
  (call.event? s kept).toList ++ ((call.counted? s kept).map .stored).toList

variable {s}

/-- Looking for a record that must be there changes nothing. -/
theorem run_fetch (id : String) (w : World Store) :
    (fetch id).run Repository.ofStore w = (w.state.demand id, w) := by
  rw [fetch, run_bind, Store.demand]
  simp only [find, run, Repository.ofStore]
  cases w.state.get? id with
  | some record => rfl
  | none => rfl

/-- Removing a record that is there is noted, and one that is not there cannot be removed. -/
theorem run_delete (id : String) (w : World Store) :
    (delete id).run Repository.ofStore w = match w.state.get? id with
      | some _ => (.ok (), ⟨w.state.erase id, w.metrics.note (.stored (w.state.erase id).count)⟩)
      | none => (.error (.ruleNotFound id), w) := by
  have hrun : (delete id).run Repository.ofStore w =
      (orElse (Repository.ofStore.delete id w.state).1 fun _ => noteCount ()).run
        Repository.ofStore ⟨(Repository.ofStore.delete id w.state).2, w.metrics⟩ := rfl
  cases hfound : w.state.get? id with
  | none =>
    rw [hrun, Store.delete_absent hfound]
    rfl
  | some record =>
    rw [hrun, Store.delete_present hfound]
    rfl

/-- A call runs as its answer, the store after it and its events say. -/
theorem Call.run_program (call : Call) (w : World Store) :
    (call.program s).run Repository.ofStore w = (call.answerOn s w.state,
      ⟨call.storeAfter s w.state, (call.events s w.state).foldl Metrics.note w.metrics⟩) := by
  cases call with
  | create id now rule =>
    simp only [program, Service.create, answerOn, storeAfter, events, event?, counted?]
    cases s.parser.parse rule with
    | error e => rfl
    | ok tree => rfl
  | combine rules => rfl
  | evaluate id data =>
    simp only [program, run_bind, Service.evaluate, run_fetch, answerOn, storeAfter, events,
      event?, counted?, executed?, Store.demand]
    cases w.state.get? id with
    | none => rfl
    | some record => rfl
  | evaluateDocument value data =>
    simp only [program, Service.evaluateDocument, answerOn, storeAfter, events, event?, counted?,
      executed?]
    cases Tree.load s.maxDepth value with
    | error e => rfl
    | ok tree => rfl
  | fetch id =>
    simp only [program, run_bind, run_fetch]
    rfl
  | list => rfl
  | delete id =>
    simp only [program, run_bind, run_delete, answerOn, storeAfter, events, event?, counted?,
      Store.demand]
    cases w.state.get? id with
    | none => rfl
    | some record => rfl

end Service

end Rulebook
