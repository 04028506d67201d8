import Rulebook.Record.Store

/-!
# Repositories

A service keeps its records through five calls. A repository says what each call answers and what
it leaves behind; it may fail at any of them. The store is the repository that fails only when
there is nothing to delete, and an outage is a repository some of whose calls always fail and do
nothing.
-/

namespace Rulebook

/-- The five calls, by name. -/
inductive CallName where
  | save
  | get
  | list
  | delete
  | count
deriving DecidableEq

/-- The name of a call in messages. -/
def CallName.text : CallName → String
  | .save => "save"
  | .get => "get"
  | .list => "list"
  | .delete => "delete"
  | .count => "count"

/-- What calls answer and leave behind, on states of a type. -/
structure Repository (σ : Type) where
  save : Record → σ → Except Error Unit × σ
  get : String → σ → Except Error (Option Record) × σ
  list : σ → Except Error (List Record) × σ
  delete : String → σ → Except Error Unit × σ
  count : σ → Except Error Nat × σ

namespace Repository

/-- The store as a repository. -/
def ofStore : Repository Store where
  save record s := (.ok (), s.save record)
  get id s := (.ok (s.get? id), s)
  list s := (.ok s.list, s)
  delete id s :=
    match s.delete id with
    | .ok after => (.ok (), after)
    | .error e => (.error e, s)
  count s := (.ok s.count, s)

/-- The failure of a call that cannot be made. -/
def unavailable (name : CallName) : Error := .invalidInput ("存储不可用: " ++ name.text)

/-- A call that is made unless its name is among those that are down. -/
def guarded {σ α : Type} (down : List CallName) (name : CallName)
    (call : σ → Except Error α × σ) (s : σ) : Except Error α × σ :=
  if down.contains name then (.error (unavailable name), s) else call s

/-- A repository some of whose calls are down. -/
def withOutage {σ : Type} (down : List CallName) (r : Repository σ) : Repository σ where
  save record := guarded down .save (r.save record)
  get id := guarded down .get (r.get id)
  list := guarded down .list r.list
  delete id := guarded down .delete (r.delete id)
  count := guarded down .count r.count

end Repository

end Rulebook
