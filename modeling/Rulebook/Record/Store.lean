import Rulebook.Record.Basic

/-!
# The store

A store keeps at most one record under each identifier. Saving under an identifier that is taken
replaces the record; deleting under one that is not fails. The list of all records is in the order
of their times, and of their identifiers where times are equal, whatever the order of saving.
-/

namespace Rulebook

/-- The records that are kept, no two under one identifier. -/
structure Store where
  records : List Record
  distinct : records.Pairwise fun a b => a.id ≠ b.id

namespace Store

/-- A store that keeps nothing. -/
def empty : Store := ⟨[], .nil⟩

/-- The record under an identifier. -/
def get? (s : Store) (id : String) : Option Record := s.records.find? (·.id == id)

/-- Whether there is a record under an identifier. -/
def contains (s : Store) (id : String) : Bool := (s.get? id).isSome

/-- How many records are kept. -/
def count (s : Store) : Nat := s.records.length

/-- The store without the record under an identifier. -/
def erase (s : Store) (id : String) : Store :=
  ⟨s.records.filter fun r => r.id != id, s.distinct.filter _⟩

/-- Keeps a record in place of the one under its identifier. -/
def save (s : Store) (r : Record) : Store where
  records := r :: (s.erase r.id).records
  distinct := by
    refine List.pairwise_cons.2 ⟨fun other h => ?_, (s.erase r.id).distinct⟩
    have := (List.mem_filter.1 h).2
    exact fun heq => by simp [← heq] at this

/-- Removes the record under an identifier, which must be there. -/
def delete (s : Store) (id : String) : Except Error Store :=
  if s.contains id then .ok (s.erase id) else .error (.ruleNotFound id)

/-- The order of the list: by time, then by identifier. -/
def listedBefore (a b : Record) : Bool :=
  if a.createdAt = b.createdAt then a.id ≤ b.id else a.createdAt.before b.createdAt

/-- All records in the order of the list. -/
def list (s : Store) : List Record := s.records.mergeSort listedBefore

end Store

end Rulebook
