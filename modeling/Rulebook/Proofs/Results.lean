import Rulebook.Error

/-!
# Steps that may fail

Inversion for sequences of steps that may fail: what ends well has gone well at each step. The
readers, the loaders and the service are all such sequences, and their proofs take them apart
with these lemmas and not by unfolding the sequencing.
-/

namespace Rulebook

universe u v

variable {ε : Type u} {α β : Type v}

@[simp] theorem Except.ok_bind (a : α) (f : α → Except ε β) : Except.ok a >>= f = f a := rfl

@[simp] theorem Except.pure_eq (a : α) : (pure a : Except ε α) = .ok a := rfl

/-- A sequence ends well exactly if both of its steps do. -/
theorem Except.bind_eq_ok {x : Except ε α} {f : α → Except ε β} {b : β} :
    x >>= f = .ok b ↔ ∃ a, x = .ok a ∧ f a = .ok b := by
  cases x with
  | error e =>
    refine ⟨?_, ?_⟩
    · intro h
      cases h
    · rintro ⟨a, ha, -⟩
      cases ha
  | ok a =>
    refine ⟨?_, ?_⟩
    · intro h
      exact ⟨a, rfl, h⟩
    · rintro ⟨_, ha, hf⟩
      cases ha
      exact hf

/-- A sequence fails where its first step fails, or its second one after it. -/
theorem Except.bind_eq_error {x : Except ε α} {f : α → Except ε β} {e : ε} :
    x >>= f = .error e ↔ x = .error e ∨ ∃ a, x = .ok a ∧ f a = .error e := by
  cases x with
  | error e' =>
    refine ⟨?_, ?_⟩
    · intro h
      cases h
      exact .inl rfl
    · rintro (h | ⟨a, h, -⟩)
      · cases h
        rfl
      · cases h
  | ok a =>
    refine ⟨?_, ?_⟩
    · intro h
      exact .inr ⟨a, rfl, h⟩
    · rintro (h | ⟨_, h, hf⟩)
      · cases h
      · cases h
        exact hf

/-- The value of an option; without one, the error. -/
def Except.ofOption (e : ε) (x : Option α) : Except ε α := x.elim (.error e) .ok

@[simp] theorem Except.ofOption_some (e : ε) (a : α) : ofOption e (some a) = .ok a := rfl

@[simp] theorem Except.ofOption_none (e : ε) : ofOption e (none : Option α) = .error e := rfl

theorem Except.ofOption_eq_ok {e : ε} {x : Option α} {a : α} :
    ofOption e x = .ok a ↔ x = some a := by
  cases x with
  | none => exact iff_of_false (fun h => nomatch h) (fun h => nomatch h)
  | some b => simp

/-- Two steps that need a condition each and fail alike need both conditions together. -/
theorem Except.ofOption_ite_bind_ite {γ : Type v} {p q : Prop} [Decidable p] [Decidable q] {e : ε}
    {x : Option α} {y : Option β} (f : α → β → Option γ) :
    (ofOption e (if p then x else none) >>= fun a =>
      ofOption e (if q then y else none) >>= fun b => ofOption e (f a b)) =
      ofOption e (if p ∧ q then x.bind fun a => y.bind fun b => f a b else none) := by
  by_cases hp : p
  · by_cases hq : q
    · rw [if_pos hp, if_pos hq, if_pos ⟨hp, hq⟩]
      cases x with
      | none => rfl
      | some a => cases y <;> rfl
    · rw [if_pos hp, if_neg hq, if_neg (mt And.right hq)]
      cases x <;> rfl
  · rw [if_neg hp, if_neg (mt And.left hp)]
    rfl

/-- Inversion for a step made with each item of a list. -/
theorem Except.mapM_cons_eq_ok {f : α → Except ε β} {x : α} {xs : List α} {ys : List β} :
    (x :: xs).mapM f = .ok ys ↔
      ∃ y rest, f x = .ok y ∧ xs.mapM f = .ok rest ∧ ys = y :: rest := by
  rw [List.mapM_cons, Except.bind_eq_ok]
  refine ⟨?_, ?_⟩
  · rintro ⟨y, hy, h⟩
    obtain ⟨rest, hrest, h⟩ := Except.bind_eq_ok.1 h
    cases h
    exact ⟨y, rest, hy, hrest, rfl⟩
  · rintro ⟨y, rest, hy, hrest, rfl⟩
    exact ⟨y, hy, Except.bind_eq_ok.2 ⟨rest, hrest, rfl⟩⟩

/-- Each result comes from an item. -/
theorem Except.exists_of_mem_mapM {f : α → Except ε β} {xs : List α} {ys : List β}
    (h : xs.mapM f = .ok ys) {y : β} (hy : y ∈ ys) : ∃ x, x ∈ xs ∧ f x = .ok y := by
  induction xs generalizing ys with
  | nil =>
    cases h
    cases hy
  | cons x xs ih =>
    obtain ⟨first, rest, hfirst, hrest, rfl⟩ := Except.mapM_cons_eq_ok.1 h
    rcases List.mem_cons.1 hy with rfl | hy
    · exact ⟨x, List.mem_cons_self .., hfirst⟩
    · obtain ⟨x', hmem, hx'⟩ := ih hrest hy
      exact ⟨x', List.mem_cons_of_mem _ hmem, hx'⟩

/-- The steps end well together exactly if each of them does, with a value of its own. -/
theorem Except.mapM_eq_ok_iff {f : α → Except ε β} {xs : List α} {ys : List β} :
    xs.mapM f = .ok ys ↔ xs.map f = ys.map .ok := by
  induction xs generalizing ys with
  | nil =>
    refine ⟨?_, ?_⟩
    · intro h
      cases h
      rfl
    · intro h
      obtain rfl := List.map_eq_nil_iff.1 h.symm
      rfl
  | cons x xs ih =>
    rw [Except.mapM_cons_eq_ok]
    refine ⟨?_, ?_⟩
    · rintro ⟨y, rest, hy, hrest, rfl⟩
      rw [List.map_cons, List.map_cons, hy, ih.1 hrest]
    · intro h
      cases ys with
      | nil => cases h
      | cons y rest =>
        obtain ⟨hy, hrest⟩ := List.cons.inj h
        exact ⟨y, rest, hy, ih.2 hrest, rfl⟩

/-- The steps fail together exactly as the first of them that fails. -/
theorem Except.mapM_eq_error_iff {f : α → Except ε β} {xs : List α} {e : ε} :
    xs.mapM f = .error e ↔ ∃ before x after, xs = before ++ x :: after ∧ f x = .error e ∧
      ∀ b ∈ before, ∃ y, f b = .ok y := by
  induction xs with
  | nil =>
    refine ⟨?_, ?_⟩
    · intro h
      cases h
    · rintro ⟨before, x, after, h, -⟩
      cases before <;> cases h
  | cons x xs ih =>
    rw [List.mapM_cons, Except.bind_eq_error]
    refine ⟨?_, ?_⟩
    · rintro (h | ⟨y, hy, h⟩)
      · exact ⟨[], x, xs, rfl, h, fun b hb => nomatch hb⟩
      · rcases Except.bind_eq_error.1 h with h | ⟨ys, -, h⟩
        · obtain ⟨before, x', after, rfl, hx', hbefore⟩ := ih.1 h
          exact ⟨x :: before, x', after, rfl, hx', List.forall_mem_cons.2 ⟨⟨y, hy⟩, hbefore⟩⟩
        · cases h
    · rintro ⟨before, x', after, hsplit, hx', hbefore⟩
      cases before with
      | nil =>
        obtain ⟨rfl, -⟩ := List.cons.inj hsplit
        exact .inl hx'
      | cons b before =>
        obtain ⟨rfl, hrest⟩ := List.cons.inj hsplit
        obtain ⟨⟨y, hy⟩, hbefore⟩ := List.forall_mem_cons.1 hbefore
        have hfails := ih.2 ⟨before, x', after, hrest, hx', hbefore⟩
        exact .inr ⟨y, hy, Except.bind_eq_error.2 (.inl hfails)⟩

/-- Where the steps fail together, one of them fails. -/
theorem Except.exists_of_mapM_eq_error {f : α → Except ε β} {xs : List α} {e : ε}
    (h : xs.mapM f = .error e) : ∃ x, x ∈ xs ∧ f x = .error e := by
  obtain ⟨before, x, after, rfl, hx, -⟩ := Except.mapM_eq_error_iff.1 h
  exact ⟨x, List.mem_append_cons_self, hx⟩

/-! ## Failures -/

/-- The error of what ends badly. -/
def failure? : Except ε α → Option ε
  | .ok _ => none
  | .error e => some e

theorem failure?_eq_some {x : Except ε α} {e : ε} : failure? x = some e ↔ x = .error e := by
  cases x with
  | ok a => exact iff_of_false (fun h => nomatch h) fun h => nomatch h
  | error e' => exact ⟨fun h => congrArg Except.error (Option.some.inj h), fun h =>
      congrArg some (Except.error.inj h)⟩

theorem Except.toOption_eq_some {x : Except ε α} {a : α} : x.toOption = some a ↔ x = .ok a := by
  cases x with
  | ok b => exact ⟨fun h => congrArg Except.ok (Option.some.inj h), fun h =>
      congrArg some (Except.ok.inj h)⟩
  | error e => exact iff_of_false (fun h => nomatch h) fun h => nomatch h

/-- Changing the value of what ends well leaves the failures. -/
theorem failure?_map (f : α → β) (x : Except ε α) : failure? (x.map f) = failure? x := by
  cases x with
  | ok a => rfl
  | error e => rfl

/-- What ends well gives a value that is `good`, and what ends badly an error that is `bad`. -/
def Ends (good : α → Prop) (bad : ε → Prop) : Except ε α → Prop
  | .ok a => good a
  | .error e => bad e

/-- What ends badly gives an error that is `bad`. -/
def FailsWith (bad : ε → Prop) (x : Except ε α) : Prop := ∀ e, x = .error e → bad e

variable {bad : ε → Prop} {x : Except ε α}

/-- A sequence ends as its second step does after what the first one gives. -/
theorem Ends.bind {middle : α → Prop} {good : β → Prop} {f : α → Except ε β}
    (hx : Ends middle bad x) (hf : ∀ a, middle a → Ends good bad (f a)) :
    Ends good bad (x >>= f) := by
  cases x with
  | error e => exact hx
  | ok a => exact hf a hx

theorem Ends.failsWith {good : α → Prop} (h : Ends good bad x) : FailsWith bad x := by
  rintro e rfl
  exact h

namespace FailsWith

theorem ends (h : FailsWith bad x) : Ends (fun _ => True) bad x := by
  cases x with
  | error e => exact h e rfl
  | ok a => trivial

theorem ok (a : α) : FailsWith bad (.ok a : Except ε α) := fun _ h => nomatch h

theorem error {e : ε} (h : bad e) : FailsWith bad (.error e : Except ε α) :=
  by
  intro e' heq
  cases heq
  exact h

theorem mono {worse : ε → Prop} (h : FailsWith bad x) (himp : ∀ e, bad e → worse e) :
    FailsWith worse x := fun e he => himp e (h e he)

/-- A sequence fails with the errors of its steps. -/
theorem bind {f : α → Except ε β} (hx : FailsWith bad x)
    (hf : ∀ a, x = .ok a → FailsWith bad (f a)) : FailsWith bad (x >>= f) := by
  intro e h
  rcases Except.bind_eq_error.1 h with h | ⟨a, ha, h⟩
  · exact hx e h
  · exact hf a ha e h

/-- The steps fail together with the errors of each. -/
theorem mapM {f : α → Except ε β} {xs : List α} (h : ∀ a ∈ xs, FailsWith bad (f a)) :
    FailsWith bad (xs.mapM f) := by
  intro e he
  obtain ⟨a, ha, hfails⟩ := Except.exists_of_mapM_eq_error he
  exact h a ha e hfails

end FailsWith

end Rulebook
