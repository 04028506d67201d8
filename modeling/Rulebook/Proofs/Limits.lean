import Rulebook.Proofs.Kinds

/-!
# Limits only admit

Reading, combining and loading take a limit on depth and look at it in checks alone. So for each
input there is one number of levels that it needs: under every limit below that number the operation
fails for the depth, and from there on the limit does not show in what it gives (`Graded`). This is
kept by doing one such operation after the other (`Graded.bind`), although the second one is reached
only under limits that the first one passes and may then fail in its own way: what is found behind a
check is found under every limit that passes it.

A limit that is raised therefore changes no result and uncovers, at most, an error that the depth
stood before (`raising_limit_only_admits`).
-/

namespace Rulebook

variable {α β : Type}

/-- An operation needs a number of levels: below it fails for the depth, and from there on it gives
one result, whatever the limit, and not that something is too deep. -/
structure Needs (f : Nat → Except Error α) (needed : Nat) (result : Except Error α) : Prop where
  admitted : ∀ limit, needed ≤ limit → f limit = result
  refused : ∀ limit, limit < needed →
    ∃ depth, limit < depth ∧ f limit = .error (.depthExceeded depth limit)
  not_tooDeep : FailsWith (¬·.TooDeep) result

/-- An operation under a limit that needs some number of levels. -/
def Graded (f : Nat → Except Error α) : Prop := ∃ needed result, Needs f needed result

namespace Graded

/-- What does not look at the limit needs no levels. -/
theorem const {x : Except Error α} (h : FailsWith (¬·.TooDeep) x) : Graded fun _ => x :=
  ⟨0, x, fun _ _ => rfl, fun limit hlt => absurd hlt (Nat.not_lt_zero limit), h⟩

/-- A check needs the depth that is checked. -/
theorem checkDepth (mode : Mode) (depth : Nat) :
    Graded fun limit => (⟨mode, limit⟩ : Parser).checkDepth depth := by
  refine ⟨depth, .ok (), fun limit hle => ?_, fun limit hlt => ?_, .ok ()⟩
  · exact if_neg (Nat.not_lt.2 hle)
  · exact ⟨depth, hlt, if_pos hlt⟩

/-- A sequence needs what its first step does and, if that ends well, what the second one does
after it. -/
theorem bind {f : Nat → Except Error α} {g : Nat → α → Except Error β} (hf : Graded f)
    (hg : ∀ a, Graded (g · a)) : Graded fun limit => f limit >>= g limit := by
  obtain ⟨needed, result, hf⟩ := hf
  cases result with
  | error e =>
    refine ⟨needed, .error e, fun limit hle => ?_, fun limit hlt => ?_, ?_⟩
    · rw [hf.admitted limit hle]
      rfl
    · obtain ⟨depth, hdepth, hfails⟩ := hf.refused limit hlt
      rw [hfails]
      exact ⟨depth, hdepth, rfl⟩
    · exact .error (hf.not_tooDeep e rfl)
  | ok a =>
    obtain ⟨after, result, hg⟩ := hg a
    refine ⟨max needed after, result, fun limit hle => ?_, fun limit hlt => ?_, hg.not_tooDeep⟩
    · rw [hf.admitted limit (Nat.le_trans (Nat.le_max_left ..) hle)]
      exact hg.admitted limit (Nat.le_trans (Nat.le_max_right ..) hle)
    · by_cases hfirst : limit < needed
      · obtain ⟨depth, hdepth, hfails⟩ := hf.refused limit hfirst
        rw [hfails]
        exact ⟨depth, hdepth, rfl⟩
      · -- the first step passes, so it is the second one that needs more
        have hle : needed ≤ limit := Nat.not_lt.1 hfirst
        have hsecond : limit < after := by omega
        rw [hf.admitted limit hle]
        exact hg.refused limit hsecond

/-- A step made with each item of a list. -/
theorem mapM {f : Nat → α → Except Error β} (h : ∀ a, Graded (f · a)) (xs : List α) :
    Graded fun limit => xs.mapM (f limit) := by
  induction xs with
  | nil => exact const (.ok [])
  | cons x xs ih =>
    simp only [List.mapM_cons]
    exact (h x).bind fun y => ih.bind fun ys => const (.ok (y :: ys))

end Graded

/-! ## The operations under a limit -/

theorem Parser.graded_parse (mode : Mode) (rule : String) :
    Graded fun limit => (⟨mode, limit⟩ : Parser).parse rule := by
  unfold parse
  by_cases hblank : Text.allBlank rule
  · simp only [if_pos hblank]
    exact .const (.error fun ⟨depth, limit, h⟩ => nomatch h)
  · simp only [if_neg hblank]
    cases mode with
    | firstMatch =>
      refine .bind (.checkDepth _ _) fun _ => .const ?_
      exact (Parsing.scan_failsWith [] [] _).mono fun e he => he.not_tooDeep
    | precedence =>
      have htokens := mt Parsing.Token.ofRule_eq_nil_iff.1 hblank
      refine .bind (.checkDepth _ _) fun _ => .const ?_
      exact (Parsing.precedence_misworded htokens).mono fun e he => he.not_tooDeep

namespace Combiner

variable (mode : Mode) (strategy : Strategy)

theorem not_tooDeep_noRules : ¬noRules.TooDeep := fun ⟨_, _, h⟩ => nomatch h

theorem graded_combineTrees (trees : List Tree) :
    Graded fun limit => (⟨⟨mode, limit⟩, strategy⟩ : Combiner).combineTrees trees := by
  simp only [combineTrees]
  cases joinAll? (strategy.connective trees) trees with
  | none => exact .bind (.checkDepth mode _) fun _ => .const (.error not_tooDeep_noRules)
  | some tree => exact .bind (.checkDepth mode _) fun _ => .const (.ok tree)

/-- The number of rules, each rule and the depth of the chain are checked one after the other. -/
theorem graded_combine (rules : List String) :
    Graded fun limit => (⟨⟨mode, limit⟩, strategy⟩ : Combiner).combine rules := by
  unfold combine
  cases rules with
  | nil => exact .const (.error not_tooDeep_noRules)
  | cons rule rules =>
    refine .bind (.checkDepth mode _) fun _ => ?_
    exact .bind (.mapM (Parser.graded_parse mode) _) (graded_combineTrees mode strategy)

end Combiner

theorem RawTree.not_tooDeep_resolve (raw : RawTree) : FailsWith (¬·.TooDeep) raw.resolve := by
  refine raw.resolve_failsWith.mono ?_
  rintro _ hkind ⟨depth, limit, rfl⟩
  cases hkind

/-- Loading measures the document before it looks at anything else of it. -/
theorem Tree.graded_load (value : Json) : Graded fun limit => Tree.load limit value := by
  refine ⟨value.sideDepth, _, fun limit hle => if_neg (Nat.not_lt.2 hle),
    fun limit hlt => ⟨_, hlt, if_pos hlt⟩, ?_⟩
  cases RawTree.load false value with
  | error fault => exact .error fun ⟨depth, limit, h⟩ => nomatch h
  | ok raw => exact raw.not_tooDeep_resolve

/-! ## Raising the limit -/

/-- Raising the limit of an operation changes no result and admits more. -/
structure OnlyAdmits (f : Nat → Except Error α) : Prop where
  /-- What is given under a limit is given under every larger one. -/
  keeps : ∀ low high, low ≤ high → ∀ a, f low = .ok a → f high = .ok a
  /-- An error that is not of the depth is there under every smaller limit, unless the depth stands
  before it. -/
  errors : ∀ low high, low ≤ high → ∀ e, f high = .error e → ¬e.TooDeep →
    f low = .error e ∨ ∃ depth, low < depth ∧ f low = .error (.depthExceeded depth low)
  /-- From some limit on nothing fails for the depth, and below it everything does. -/
  threshold : ∃ needed, (∀ limit, needed ≤ limit → f limit = f needed) ∧
    FailsWith (¬·.TooDeep) (f needed) ∧ ∀ limit, limit < needed →
      ∃ depth, limit < depth ∧ f limit = .error (.depthExceeded depth limit)

theorem Graded.onlyAdmits {f : Nat → Except Error α} (h : Graded f) : OnlyAdmits f := by
  obtain ⟨needed, result, hf⟩ := h
  have hneeded : f needed = result := hf.admitted needed (Nat.le_refl needed)
  refine ⟨fun low high hle a hok => ?_, fun low high hle e herror he => ?_, needed, ?_, ?_,
    hf.refused⟩
  · by_cases hlow : low < needed
    · obtain ⟨depth, -, hfails⟩ := hf.refused low hlow
      rw [hfails] at hok
      cases hok
    · have hlow : needed ≤ low := Nat.not_lt.1 hlow
      rw [hf.admitted high (Nat.le_trans hlow hle), ← hf.admitted low hlow, hok]
  · by_cases hlow : low < needed
    · exact .inr (hf.refused low hlow)
    · have hlow : needed ≤ low := Nat.not_lt.1 hlow
      rw [hf.admitted low hlow, ← hf.admitted high (Nat.le_trans hlow hle), herror]
      exact .inl rfl
  · intro limit hle
    rw [hf.admitted limit hle, hneeded]
  · rw [hneeded]
    exact hf.not_tooDeep

/-- **Raising the limit only admits more.** For both ways of reading and both strategies, reading a
rule, combining rules, combining trees and loading a document give under a larger limit what they
give under a smaller one; their errors are the same too, unless one of them is of the depth. Each
input has a number of levels below which it is refused for the depth and from which on it never
is. -/
theorem raising_limit_only_admits (mode : Mode) (strategy : Strategy) :
    (∀ rule : String, OnlyAdmits fun limit => (⟨mode, limit⟩ : Parser).parse rule) ∧
    (∀ rules : List String, OnlyAdmits fun limit =>
      (⟨⟨mode, limit⟩, strategy⟩ : Combiner).combine rules) ∧
    (∀ trees : List Tree, OnlyAdmits fun limit =>
      (⟨⟨mode, limit⟩, strategy⟩ : Combiner).combineTrees trees) ∧
    ∀ value : Json, OnlyAdmits fun limit => Tree.load limit value :=
  ⟨fun rule => (Parser.graded_parse mode rule).onlyAdmits,
    fun rules => (Combiner.graded_combine mode strategy rules).onlyAdmits,
    fun trees => (Combiner.graded_combineTrees mode strategy trees).onlyAdmits,
    fun value => (Tree.graded_load value).onlyAdmits⟩

/-- The second rule cannot be read, but under one level there are too many rules to read any. -/
example :
    (⟨⟨.precedence, 1⟩, .fixedAnd⟩ : Combiner).combine ["a = x AND b = y", "c ="] =
      .error (.depthExceeded 2 1) ∧
    (⟨⟨.precedence, 2⟩, .fixedAnd⟩ : Combiner).combine ["a = x AND b = y", "c ="] =
      .error (.malformedClause "c =") := ⟨rfl, rfl⟩

end Rulebook
