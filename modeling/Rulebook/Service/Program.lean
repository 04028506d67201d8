import Rulebook.Metrics.Basic
import Rulebook.Service.Repository

/-!
# Programs of a service

What a service does is written as a program over two kinds of effects: calls to a repository and
events to be counted. A program is data, so that it can be run in one go, which is what `run`
does, or step by step beside others, which is what `step?` is for. Each effect is one step.
-/

namespace Rulebook

/-- A program that ends with a value. -/
inductive Program (α : Type) where
  /-- the end -/
  | done (value : α)
  /-- keep a record, then go on with how that went -/
  | save (record : Record) (next : Except Error Unit → Program α)
  /-- ask for the record under an identifier -/
  | get (id : String) (next : Except Error (Option Record) → Program α)
  /-- ask for all records -/
  | list (next : Except Error (List Record) → Program α)
  /-- remove the record under an identifier -/
  | delete (id : String) (next : Except Error Unit → Program α)
  /-- ask how many records there are -/
  | count (next : Except Error Nat → Program α)
  /-- count an event -/
  | note (event : Metrics.Event) (next : Program α)

namespace Program

variable {α β σ : Type}

/-- One program after another. -/
def bind (p : Program α) (f : α → Program β) : Program β :=
  match p with
  | .done value => f value
  | .save record next => .save record fun answer => (next answer).bind f
  | .get id next => .get id fun answer => (next answer).bind f
  | .list next => .list fun answer => (next answer).bind f
  | .delete id next => .delete id fun answer => (next answer).bind f
  | .count next => .count fun answer => (next answer).bind f
  | .note event next => .note event (next.bind f)

instance : Monad Program where
  pure := .done
  bind := bind

/-- What programs act on: the state of a repository and what has been counted. -/
structure World (σ : Type) where
  state : σ
  metrics : Metrics

/-- One step of a program; at its end there is none. -/
def step? (r : Repository σ) (w : World σ) : Program α → Option (Program α × World σ)
  | .done _ => none
  | .save record next =>
    let (answer, after) := r.save record w.state
    some (next answer, { w with state := after })
  | .get id next =>
    let (answer, after) := r.get id w.state
    some (next answer, { w with state := after })
  | .list next =>
    let (answer, after) := r.list w.state
    some (next answer, { w with state := after })
  | .delete id next =>
    let (answer, after) := r.delete id w.state
    some (next answer, { w with state := after })
  | .count next =>
    let (answer, after) := r.count w.state
    some (next answer, { w with state := after })
  | .note event next => some (next, { w with metrics := w.metrics.note event })

/-- Runs a program to its end. -/
def run (r : Repository σ) (w : World σ) : Program α → α × World σ
  | .done value => (value, w)
  | .save record next =>
    let (answer, after) := r.save record w.state
    run r { w with state := after } (next answer)
  | .get id next =>
    let (answer, after) := r.get id w.state
    run r { w with state := after } (next answer)
  | .list next =>
    let (answer, after) := r.list w.state
    run r { w with state := after } (next answer)
  | .delete id next =>
    let (answer, after) := r.delete id w.state
    run r { w with state := after } (next answer)
  | .count next =>
    let (answer, after) := r.count w.state
    run r { w with state := after } (next answer)
  | .note event next => run r { w with metrics := w.metrics.note event } next

/-! ## Effects as programs -/

/-- Ends with a failure, or goes on with a value. -/
def orElse (answer : Except Error α) (f : α → Program (Except Error β)) :
    Program (Except Error β) :=
  match answer with
  | .ok value => f value
  | .error e => .done (.error e)

/-- Keeps a record. -/
def keep (record : Record) : Program (Except Error Unit) := .save record .done

/-- The record under an identifier, if there is one. -/
def find (id : String) : Program (Except Error (Option Record)) := .get id .done

/-- All records. -/
def all : Program (Except Error (List Record)) := .list .done

/-- Removes the record under an identifier. -/
def remove (id : String) : Program (Except Error Unit) := .delete id .done

/-- How many records there are. -/
def size : Program (Except Error Nat) := .count .done

/-- Counts an event. -/
def tell (event : Metrics.Event) : Program Unit := .note event (.done ())

end Program

end Rulebook
