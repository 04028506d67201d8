import Rulebook.Parsing.Clause

/-!
# Reading up to the first connective

In this way of reading, the words up to the first connective are a clause and all that follows is
the rule on its other side; parentheses are characters like any other. `scan` goes through the
words once and keeps the clauses it has closed, and `split` says the same by recursion: cut at the
first connective, read the left piece as a clause and the right piece as a rule.
-/

namespace Rulebook.Parsing

/-- The number of connectives among words. -/
def connectives (words : List String) : Nat :=
  (words.filter fun w => (Connective.ofWord? w).isSome).length

/-- Hangs the closed clauses, last one first, over the tree that was read after them. -/
def hang (closed : List (Tree × Connective)) (tail : Tree) : Tree :=
  closed.foldl (fun tree part => .join part.2 part.1 tree) tail

/-- Reads words from left to right. `closed` holds the clauses before the last connective, last
one first, and `open` the words after it, last one first. -/
def scan (closed : List (Tree × Connective)) (opened : List String) :
    List String → Except Error Tree
  | [] => do return hang closed (← clause opened.reverse)
  | word :: rest =>
    match Connective.ofWord? word with
    | none => scan closed (word :: opened) rest
    | some connective =>
      if opened.isEmpty then .error (.danglingConnective connective.word .left)
      else if rest.isEmpty then .error (.danglingConnective connective.word .right)
      else do
        let left ← clause opened.reverse
        scan ((left, connective) :: closed) [] rest

/-- The tree of words that are read up to the first connective. -/
def firstMatch (words : List String) : Except Error Tree := scan [] [] words

/-- The words before the first connective, that connective, and the words after it. -/
def cut? : List String → Option (List String × Connective × List String)
  | [] => none
  | word :: rest =>
    match Connective.ofWord? word with
    | some connective => some ([], connective, rest)
    | none => (cut? rest).map fun (left, connective, right) => (word :: left, connective, right)

theorem length_of_cut? {words left right : List String} {c : Connective}
    (h : cut? words = some (left, c, right)) : right.length < words.length := by
  induction words generalizing left with
  | nil => simp [cut?] at h
  | cons word rest ih =>
    unfold cut? at h
    split at h
    · cases h; simp
    · obtain ⟨⟨l, d, r⟩, hr, heq⟩ := Option.map_eq_some_iff.1 h
      simp only [Prod.mk.injEq] at heq
      obtain ⟨-, rfl, rfl⟩ := heq
      have := ih hr
      simp only [List.length_cons]
      omega

/-- The tree of words by recursion: cut at the first connective and read the two pieces. -/
def split (words : List String) : Except Error Tree :=
  match h : cut? words with
  | none => clause words
  | some (left, connective, right) =>
    if left.isEmpty then .error (.danglingConnective connective.word .left)
    else if right.isEmpty then .error (.danglingConnective connective.word .right)
    else do
      let first ← clause left
      have : right.length < words.length := length_of_cut? h
      return .join connective first (← split right)
termination_by words.length

end Rulebook.Parsing
