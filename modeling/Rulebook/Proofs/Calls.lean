import Rulebook.Proofs.Running

/-!
# Calls of a service, one after another

A service is used through seven calls. Here they are data, so that one can speak of every sequence
of them: `runCalls` runs a sequence, each call in the world that the one before it leaves.
-/

namespace Rulebook.Service

/-- A call of a service. A rule that is to be created brings its identifier and its time. -/
inductive Call where
  | create (id : String) (now : Timestamp) (rule : String)
  | combine (rules : List String)
  | evaluate (id : String) (data : Json)
  | evaluateDocument (value data : Json)
  | fetch (id : String)
  | list
  | delete (id : String)

/-- What a call is answered. -/
inductive Answer where
  | record (answer : Except Error Record)
  | tree (answer : Except Error Tree)
  | outcome (answer : Except Error Outcome)
  | records (answer : Except Error (List Record))
  | deleted (answer : Except Error Unit)

/-- The program that answers a call. -/
def Call.program (s : Settings) : Call → Program Answer
  | .create id now rule => do return .record (← Service.create s id now rule)
  | .combine rules => do return .tree (← Service.combine s rules)
  | .evaluate id data => do return .outcome (← Service.evaluate s id data)
  | .evaluateDocument value data => do return .outcome (← Service.evaluateDocument s value data)
  | .fetch id => do return .record (← Service.fetch id)
  | .list => do return .records (← Service.list)
  | .delete id => do return .deleted (← Service.delete id)

/-- Runs calls in their order. -/
def runCalls {σ : Type} (s : Settings) (r : Repository σ) (w : Program.World σ) :
    List Call → List Answer × Program.World σ
  | [] => ([], w)
  | call :: calls =>
    let (answer, v) := (call.program s).run r w
    let (answers, u) := runCalls s r v calls
    (answer :: answers, u)

/-! ## Calls that leave a record alone -/

open Program

/-- The call neither creates nor deletes under the identifier. -/
def Call.Spares (id : String) : Call → Prop
  | .create other _ _ => other ≠ id
  | .delete other => other ≠ id
  | _ => True

theorem spares_noteCount {α : Type} (id : String) (value : α) : (noteCount value).Spares id :=
  .bind (fun _ => trivial) fun _ => .orElse fun _ => trivial

theorem spares_evaluateTree (id : String) (s : Settings) (tree : Tree) (data : Json) :
    (evaluateTree s tree data).Spares id := trivial

theorem spares_fetch (id other : String) : (fetch other).Spares id := by
  refine .bind (fun _ => trivial) fun _ => .orElse fun found => ?_
  cases found <;> trivial

/-- The program of a call spares what the call spares. -/
theorem Call.Spares.program {id : String} {call : Call} (h : call.Spares id) (s : Settings) :
    (call.program s).Spares id := by
  cases call with
  | create other now rule =>
    refine .bind (.bind trivial fun _ => .orElse fun tree => ?_) fun _ => trivial
    exact .bind ⟨h, fun _ => trivial⟩ fun _ => .orElse fun _ => spares_noteCount id _
  | combine rules => trivial
  | evaluate other data =>
    exact .bind (.bind (spares_fetch id other) fun _ => .orElse fun _ =>
      spares_evaluateTree id s _ data) fun _ => trivial
  | evaluateDocument value data =>
    exact .bind (.orElse fun tree => spares_evaluateTree id s tree data) fun _ => trivial
  | fetch other => exact .bind (spares_fetch id other) fun _ => trivial
  | list => exact fun _ => trivial
  | delete other =>
    exact .bind (.bind ⟨h, fun _ => trivial⟩ fun _ => .orElse fun _ => spares_noteCount id ())
      fun _ => trivial

/-- A record outlives all calls that spare it. -/
theorem get?_runCalls {id : String} {calls : List Call} (h : ∀ call ∈ calls, call.Spares id)
    (s : Settings) (w : World Store) :
    (runCalls s Repository.ofStore w calls).2.state.get? id = w.state.get? id := by
  induction calls generalizing w with
  | nil => rfl
  | cons call calls ih =>
    have hfirst := ((h call (List.mem_cons_self ..)).program s).get?_run w
    exact (ih (fun other hother => h other (List.mem_cons_of_mem _ hother)) _).trans hfirst

end Rulebook.Service
