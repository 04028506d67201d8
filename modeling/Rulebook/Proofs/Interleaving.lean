import Mathlib.Data.List.Induction
import Rulebook.Proofs.Effects
import Rulebook.Proofs.Exactness

/-!
# Calls side by side

Calls that are made at the same time take their steps in any order. A pool holds what is left of
each call and the world that all of them share; a schedule says whose step is next, so that the
schedules are all the ways in which the steps of the calls can fall between each other.

A write notes how many rules there are in two steps: it asks, and then sets the gauge to the answer.
Other calls may change the store in between, or set the gauge to an older answer afterwards. So the
gauge shows how many rules there were when the call that set it last had asked
(`gauge_shows_last_asked`), and it is right exactly if there are as many now. Two rules created at
the same time may leave it at one (`gauge_stale_after_two_creates`); calls that are made one after
another leave it right (`gauge_right_after_runCalls`).
-/

namespace Rulebook

/-! ## Pools -/

namespace Program

variable {σ α : Type}

/-- The value that a program has ended with. -/
def answer? : Program α → Option α
  | .done value => some value
  | _ => none

/-- Only a program that has ended takes no step. -/
theorem step?_eq_none {r : Repository σ} {p : Program α} {w : World σ} :
    p.step? r w = none ↔ ∃ value, p = .done value := by
  cases p with
  | done value => exact ⟨fun _ => ⟨value, rfl⟩, fun _ => rfl⟩
  | _ =>
    refine ⟨?_, ?_⟩
    · intro h
      cases h
    · rintro ⟨value, h⟩
      cases h

/-- Programs that run side by side, and the world that they share. -/
structure Pool (σ α : Type) where
  programs : List (Program α)
  world : World σ

namespace Pool

/-- One step of the program with a number. A program that has ended takes no step. -/
def step (r : Repository σ) (pool : Pool σ α) (i : Nat) : Pool σ α :=
  match pool.programs[i]?.bind (·.step? r pool.world) with
  | some (p, w) => ⟨pool.programs.set i p, w⟩
  | none => pool

/-- The pool after steps in the order of a schedule. -/
def after (r : Repository σ) (pool : Pool σ α) (schedule : List Nat) : Pool σ α :=
  schedule.foldl (step r) pool

/-- The program with a number is about to ask how many records there are. -/
def Asks (pool : Pool σ α) (i : Nat) : Prop := ∃ next, pool.programs[i]? = some (.count next)

/-- The program with a number is about to note how many records there are. -/
def Notes (pool : Pool σ α) (i n : Nat) : Prop :=
  ∃ next, pool.programs[i]? = some (.note (.stored n) next)

variable {r : Repository σ} {pool : Pool σ α} {i : Nat}

theorem after_concat (r : Repository σ) (pool : Pool σ α) (schedule : List Nat) (i : Nat) :
    pool.after r (schedule ++ [i]) = (pool.after r schedule).step r i := by
  rw [after, List.foldl_append]
  rfl

/-- A step is one of the program with the number, or there is no such program, or it has ended. -/
theorem step_cases (r : Repository σ) (pool : Pool σ α) (i : Nat) :
    ((∀ p, pool.programs[i]? = some p → ∃ value, p = .done value) ∧ pool.step r i = pool) ∨
      ∃ p q w, pool.programs[i]? = some p ∧ p.step? r pool.world = some (q, w) ∧
        pool.step r i = ⟨pool.programs.set i q, w⟩ := by
  unfold step
  cases hstep : pool.programs[i]?.bind (·.step? r pool.world) with
  | none =>
    refine .inl ⟨fun p hp => ?_, rfl⟩
    rw [hp] at hstep
    exact step?_eq_none.1 hstep
  | some result =>
    obtain ⟨q, w⟩ := result
    obtain ⟨p, hp, hq⟩ := Option.bind_eq_some_iff.1 hstep
    exact .inr ⟨p, q, w, hp, hq, rfl⟩

end Pool

end Program

/-! ## The gauge -/

namespace Metrics

/-- The gauge of the number of rules, as it is given out. -/
def storedGauge (m : Metrics) : Option Nat := lookup? ⟨"rules_stored", []⟩ m.gaugeReadings

theorem lookup?_update_self {α : Type} (start : α) (f : α → α) (s : Series)
    (held : List (Series × α)) :
    lookup? s (update start f s held) = some (f ((lookup? s held).getD start)) := by
  induction held with
  | nil => simp only [update, lookup?, if_true, Option.getD_none]
  | cons first rest ih =>
    obtain ⟨t, a⟩ := first
    by_cases h : t = s
    · simp only [update, lookup?, h, if_true, Option.getD_some]
    · simp only [update, lookup?, h, if_false, ih]

theorem lookup?_map {α β : Type} (g : α → β) (s : Series) (held : List (Series × α)) :
    lookup? s (held.map fun (t, a) => (t, g a)) = (lookup? s held).map g := by
  induction held with
  | nil => rfl
  | cons first rest ih =>
    obtain ⟨t, a⟩ := first
    by_cases h : t = s
    · simp only [List.map_cons, lookup?, h, if_true, Option.map_some]
    · simp only [List.map_cons, lookup?, h, if_false, ih]

/-- Fewer than `2 ^ 53` are given out as they are. -/
theorem reading_eq_self {n : Nat} (h : n < Nat.pow 2 53) : reading n = n := by
  have hbound : Nat.pow 2 53 ≤ Nat.pow 2 64 - 1 := by decide
  rw [reading, Binary64.integer?_ofInt h, Option.elim_some, Int.toNat_natCast]
  exact Nat.min_eq_left (Nat.le_trans (Nat.le_of_lt h) hbound)

/-- Only noting how many rules are stored sets the gauge. -/
theorem storedGauge_note (m : Metrics) (event : Event) :
    (m.note event).storedGauge = match event with
      | .stored n => some (reading n)
      | _ => m.storedGauge := by
  cases event with
  | stored n =>
    have hset := lookup?_update_self 0 (fun _ => n) ⟨"rules_stored", []⟩ m.gauges
    rw [storedGauge, gaugeReadings, lookup?_map]
    exact congrArg (Option.map reading) hset
  | _ => rfl

end Metrics

/-! ## Asking, then noting -/

namespace Program

variable {α β : Type}

/-- The program notes how many records there are only in the step after it has asked, and then it
notes the answer; it ends with a value that is `good` only if it has noted it. The answer to the
step before is `asked`, if that was the question, and `noted` holds if there has been a note. -/
def Reports (good : α → Prop) (asked : Option Nat) (noted : Bool) : Program α → Prop
  | .done value => good value → noted
  | .save _ next => ∀ answer, (next answer).Reports good none noted
  | .get _ next => ∀ answer, (next answer).Reports good none noted
  | .list next => ∀ answer, (next answer).Reports good none noted
  | .delete _ next => ∀ answer, (next answer).Reports good none noted
  | .count next => (∀ n, (next (.ok n)).Reports good (some n) noted) ∧
      ∀ e, (next (.error e)).Reports good none noted
  | .note (.stored n) next => asked = some n ∧ next.Reports good none true
  | .note _ next => next.Reports good none noted

variable {good : α → Prop} {asked : Option Nat} {noted : Bool}

/-- What a step does on the store: it asks, it notes the answer, or it leaves the gauge alone. -/
theorem Reports.step {p q : Program α} {w v : World Store} (h : p.Reports good asked noted)
    (hstep : p.step? Repository.ofStore w = some (q, v)) :
    (∃ next, p = .count next ∧ v = w ∧ q.Reports good (some w.state.count) noted) ∨
    (∃ n next, p = .note (.stored n) next ∧ asked = some n ∧
      v.metrics.storedGauge = some (Metrics.reading n) ∧ q.Reports good none true) ∨
    ((∀ n next, p ≠ .note (.stored n) next) ∧
      v.metrics.storedGauge = w.metrics.storedGauge ∧ q.Reports good none noted) := by
  cases p with
  | done => cases hstep
  | count next =>
    cases hstep
    exact .inl ⟨next, rfl, rfl, h.1 _⟩
  | note event next =>
    cases hstep
    cases event with
    | stored n =>
      exact .inr (.inl ⟨n, _, rfl, h.1, w.metrics.storedGauge_note _, h.2⟩)
    | _ =>
      refine .inr (.inr ⟨?_, w.metrics.storedGauge_note _, h⟩)
      intro n other heq
      cases heq
  | _ =>
    cases hstep
    refine .inr (.inr ⟨?_, rfl, h _⟩)
    intro n other heq
    cases heq

/-! ## What the gauge shows -/

namespace Pool

/-- The last step so far of the program with the number `i` was to ask, and the answer was `n`. -/
def Answered (pool : Pool Store α) (schedule : List Nat) (i n : Nat) : Prop :=
  ∃ before between, schedule = before ++ i :: between ∧ i ∉ between ∧
    (pool.after Repository.ofStore before).Asks i ∧
    (pool.after Repository.ofStore before).world.state.count = n

/-- Where in a schedule the gauge was set last: the program with the number `caller` asked after
the steps `before`, and in its next step, after those `between`, it noted the answer. None of the
other steps, the `rest`, has set the gauge. -/
structure LastReport (pool : Pool Store α) (schedule : List Nat) where
  before : List Nat
  caller : Nat
  between : List Nat
  rest : List Nat
  schedule_eq : schedule = before ++ caller :: (between ++ caller :: rest)
  not_mem : caller ∉ between
  asks : (pool.after Repository.ofStore before).Asks caller
  notes : (pool.after Repository.ofStore (before ++ caller :: between)).Notes caller
    (pool.after Repository.ofStore before).world.state.count
  silent {xs ys : List Nat} {j n : Nat} : rest = xs ++ j :: ys →
    ¬(pool.after Repository.ofStore (before ++ caller :: (between ++ caller :: xs))).Notes j n
  shown : (pool.after Repository.ofStore schedule).world.metrics.storedGauge =
    some (Metrics.reading (pool.after Repository.ofStore before).world.state.count)

variable {pool : Pool Store α} {schedule : List Nat} {i j n : Nat}

/-- The store when the program asked whose answer the gauge shows. -/
def LastReport.askedOf (report : LastReport pool schedule) : Store :=
  (pool.after Repository.ofStore report.before).world.state

/-- A step of another program. -/
theorem Answered.concat (h : pool.Answered schedule i n) (hne : i ≠ j) :
    pool.Answered (schedule ++ [j]) i n := by
  obtain ⟨before, between, rfl, hmem, hasks, hn⟩ := h
  refine ⟨before, between ++ [j], by simp only [List.append_assoc, List.cons_append], ?_, hasks,
    hn⟩
  simp only [List.mem_append, List.mem_singleton, not_or]
  exact ⟨hmem, hne⟩

/-- A step that does not set the gauge. -/
theorem LastReport.concat (hreport : Nonempty (LastReport pool schedule))
    (hsilent : ∀ n, ¬(pool.after Repository.ofStore schedule).Notes j n)
    (hshown : (pool.after Repository.ofStore (schedule ++ [j])).world.metrics.storedGauge =
      (pool.after Repository.ofStore schedule).world.metrics.storedGauge) :
    Nonempty (LastReport pool (schedule ++ [j])) := by
  obtain ⟨report⟩ := hreport
  refine ⟨{ report with
    rest := report.rest ++ [j]
    schedule_eq := ?_
    silent := ?_
    shown := hshown.trans report.shown }⟩
  · simp only [report.schedule_eq, List.append_assoc, List.cons_append]
  · intro xs ys k m h
    rcases List.eq_nil_or_concat ys with rfl | ⟨zs, last, rfl⟩
    · -- the new step itself
      obtain ⟨hxs, hk⟩ := List.append_inj' h rfl
      cases hk
      rw [← hxs, ← report.schedule_eq]
      exact hsilent m
    · rw [List.concat_eq_append, ← List.cons_append, ← List.append_assoc] at h
      exact report.silent (List.append_inj' h rfl).1

/-- The step in which a program notes the answer to its question. -/
theorem Answered.lastReport (h : pool.Answered schedule i n)
    (hnotes : (pool.after Repository.ofStore schedule).Notes i n)
    (hshown : (pool.after Repository.ofStore (schedule ++ [i])).world.metrics.storedGauge =
      some (Metrics.reading n)) : Nonempty (LastReport pool (schedule ++ [i])) := by
  obtain ⟨before, between, rfl, hmem, hasks, rfl⟩ := h
  refine ⟨⟨before, i, between, [], ?_, hmem, hasks, hnotes, ?_, hshown⟩⟩
  · simp only [List.append_assoc, List.cons_append]
  · intro xs ys k m h
    exact absurd h.symm (List.append_ne_nil_of_right_ne_nil xs (List.cons_ne_nil k ys))

/-- Each program reports from where it stands; what it has been answered and that it has noted it
is so in the schedule. -/
def Tracked (good : Nat → α → Prop) (pool : Pool Store α) (schedule : List Nat) : Prop :=
  ∀ (i : Nat) (p : Program α), (pool.after Repository.ofStore schedule).programs[i]? = some p →
    ∃ (asked : Option Nat) (noted : Bool), p.Reports (good i) asked noted ∧
      (∀ n, asked = some n → pool.Answered schedule i n) ∧
      (noted → Nonempty (LastReport pool schedule))

variable {good : Nat → α → Prop}

/-- One more step of a pool in which each program is tracked: the program that takes the step is
tracked after it, and the last report is not lost. -/
theorem Tracked.concat {q : Program α} {asked : Option Nat} {noted : Bool}
    (h : Tracked good pool schedule)
    (hprograms : (pool.after Repository.ofStore (schedule ++ [j])).programs =
      (pool.after Repository.ofStore schedule).programs.set j q)
    (hreports : q.Reports (good j) asked noted)
    (hanswered : ∀ n, asked = some n → pool.Answered (schedule ++ [j]) j n)
    (hnoted : noted → Nonempty (LastReport pool (schedule ++ [j])))
    (hkept : Nonempty (LastReport pool schedule) →
      Nonempty (LastReport pool (schedule ++ [j]))) : Tracked good pool (schedule ++ [j]) := by
  intro i p hp
  rw [hprograms] at hp
  by_cases hij : j = i
  · subst hij
    rw [List.getElem?_set_self'] at hp
    obtain ⟨_, -, rfl⟩ := Option.map_eq_some_iff.1 hp
    exact ⟨asked, noted, hreports, hanswered, hnoted⟩
  · rw [List.getElem?_set_ne hij] at hp
    obtain ⟨asked', noted', hreports', hanswered', hnoted'⟩ := h i p hp
    exact ⟨asked', noted', hreports', fun n hn => (hanswered' n hn).concat (Ne.symm hij),
      fun hn => hkept (hnoted' hn)⟩

/-- A step of a program that has ended, or is not there. -/
theorem Tracked.concat_ended (h : Tracked good pool schedule)
    (hended : ∀ p, (pool.after Repository.ofStore schedule).programs[j]? = some p →
      ∃ value, p = .done value)
    (hsame : pool.after Repository.ofStore (schedule ++ [j]) =
      pool.after Repository.ofStore schedule) : Tracked good pool (schedule ++ [j]) := by
  have hsilent (n : Nat) : ¬(pool.after Repository.ofStore schedule).Notes j n := by
    rintro ⟨next, hnext⟩
    obtain ⟨value, hvalue⟩ := hended _ hnext
    cases hvalue
  have hkept (hreport : Nonempty (LastReport pool schedule)) :
      Nonempty (LastReport pool (schedule ++ [j])) :=
    LastReport.concat hreport hsilent (by rw [hsame])
  intro i p hp
  rw [hsame] at hp
  obtain ⟨asked, noted, hreports, hanswered, hnoted⟩ := h i p hp
  by_cases hij : i = j
  · -- whatever it was answered before, it does not matter to a program that has ended
    subst hij
    obtain ⟨value, rfl⟩ := hended p hp
    exact ⟨none, noted, hreports, fun n hn => (nomatch hn), fun hn => hkept (hnoted hn)⟩
  · exact ⟨asked, noted, hreports, fun n hn => (hanswered n hn).concat hij,
      fun hn => hkept (hnoted hn)⟩

/-- Programs that report are tracked through every schedule. -/
theorem tracked_after (h : ∀ (i : Nat) (p : Program α), pool.programs[i]? = some p →
      p.Reports (good i) none false) (schedule : List Nat) : Tracked good pool schedule := by
  induction schedule using List.reverseRecOn with
  | nil =>
    intro i p hp
    exact ⟨none, false, h i p hp, fun n hn => (nomatch hn), fun hnoted => (nomatch hnoted)⟩
  | append_singleton schedule j ih =>
    have hafter := after_concat Repository.ofStore pool schedule j
    rcases step_cases Repository.ofStore (pool.after Repository.ofStore schedule) j with
      ⟨hended, hsame⟩ | ⟨p, q, w, hp, hstep, hnext⟩
    · exact ih.concat_ended hended (hafter.trans hsame)
    · rw [hnext] at hafter
      obtain ⟨asked, noted, hreports, hanswered, hnoted⟩ := ih j p hp
      have hprograms := congrArg Pool.programs hafter
      have hworld := congrArg Pool.world hafter
      dsimp only at hprograms hworld
      rcases hreports.step hstep with ⟨next, rfl, rfl, hq⟩ | ⟨n, next, rfl, hasked, hgauge, hq⟩ |
        ⟨hsilent, hgauge, hq⟩
      · -- the program asks
        have hsilent (n : Nat) : ¬(pool.after Repository.ofStore schedule).Notes j n := by
          rintro ⟨other, hother⟩
          cases hp.symm.trans hother
        have hkept := fun hreport => LastReport.concat hreport hsilent (by rw [hworld])
        refine ih.concat hprograms hq ?_ (fun hn => hkept (hnoted hn)) hkept
        rintro n hn
        cases hn
        exact ⟨schedule, [], rfl, List.not_mem_nil, ⟨next, hp⟩, rfl⟩
      · -- the program notes what it has been answered
        have hreport := (hanswered n hasked).lastReport ⟨next, hp⟩ (by rw [hworld]; exact hgauge)
        exact ih.concat hprograms hq (fun m hm => (nomatch hm)) (fun _ => hreport)
          (fun _ => hreport)
      · -- the program does something else
        have hother (n : Nat) : ¬(pool.after Repository.ofStore schedule).Notes j n := by
          rintro ⟨next, hnext⟩
          exact hsilent n next (Option.some.inj (hp.symm.trans hnext))
        have hkept := fun hreport => LastReport.concat hreport hother (by rw [hworld, hgauge])
        exact ih.concat hprograms hq (fun m hm => (nomatch hm)) (fun hn => hkept (hnoted hn)) hkept

end Pool

/-! ## Programs of the service -/

variable {f : Except Error β → α}

theorem reports_orElse {γ : Type} {answer : Except Error γ} {g : γ → Program (Except Error β)}
    (hg : ∀ value, (g value >>= fun b => .done (f b)).Reports good none noted)
    (hf : ∀ e, ¬good (f (.error e))) :
    (Program.orElse answer g >>= fun b => .done (f b)).Reports good none noted := by
  cases answer with
  | ok value => exact hg value
  | error e => exact fun hgood => absurd hgood (hf e)

/-- The end of a write asks and notes the answer. -/
theorem reports_noteCount (value : β) (hf : ∀ e, ¬good (f (.error e))) :
    (Service.noteCount value >>= fun b => .done (f b)).Reports good none noted :=
  ⟨fun _ => ⟨rfl, fun _ => rfl⟩, fun e hgood => absurd hgood (hf e)⟩

end Program

namespace Service

open Program

/-! ## Calls of the service -/

/-- The answer says that a rule has been created or deleted. -/
def Call.Succeeds : Call → Answer → Prop
  | .create .., .record (.ok _) => True
  | .delete _, .deleted (.ok _) => True
  | _, _ => False

/-! ## Calls one after another -/

/-- A write that succeeds has noted how many records there are, and no other call notes it. -/
theorem reports_program (s : Settings) (call : Call) :
    (call.program s).Reports call.Succeeds none false := by
  cases call with
  | create =>
    refine reports_orElse (fun tree answer => ?_) fun _ => id
    exact reports_orElse (fun _ => reports_noteCount _ fun _ => id) fun _ => id
  | combine => exact (nomatch ·)
  | evaluate id data =>
    intro answer
    rcases answer with e | _ | record <;> exact (nomatch ·)
  | evaluateDocument value data =>
    exact reports_orElse (fun _ => (nomatch ·)) fun _ => (nomatch ·)
  | fetch id =>
    intro answer
    rcases answer with e | _ | record <;> exact (nomatch ·)
  | list => exact fun _ => (nomatch ·)
  | delete =>
    exact fun _ => reports_orElse (fun _ => reports_noteCount () fun _ => id) fun _ => id

/-- Calls that are made at the same time. -/
def Call.sideBySide (s : Settings) (calls : List Call) (w : World Store) : Pool Store Answer :=
  ⟨calls.map (·.program s), w⟩

/-- **The gauge shows what the call was told that set it last.** However the steps of calls fall,
as soon as a rule has been created or deleted the gauge shows how many rules there were when the
call that set it last had asked. So it is right exactly if there are as many now. -/
theorem gauge_shows_last_asked {s : Settings} {calls : List Call} {w : World Store}
    {schedule : List Nat} {i : Nat} {call : Call} {answer : Answer} (hcall : calls[i]? = some call)
    (hended : ((Call.sideBySide s calls w).after Repository.ofStore schedule).programs[i]? =
      some (.done answer))
    (hgood : call.Succeeds answer) :
    ∃ report : Pool.LastReport (Call.sideBySide s calls w) schedule,
      let now := ((Call.sideBySide s calls w).after Repository.ofStore schedule).world
      now.metrics.storedGauge = some (Metrics.reading report.askedOf.count) ∧
        (report.askedOf.count < Nat.pow 2 53 →
          (now.metrics.storedGauge = some now.state.count ↔
            report.askedOf.count = now.state.count)) := by
  -- each program is held to what its own call counts as success
  let good (j : Nat) : Answer → Prop := calls[j]?.elim (fun _ => False) Call.Succeeds
  have hstart (j : Nat) (p : Program Answer)
      (hp : (Call.sideBySide s calls w).programs[j]? = some p) :
      p.Reports (good j) none false := by
    rw [Call.sideBySide, List.getElem?_map] at hp
    obtain ⟨other, hother, rfl⟩ := Option.map_eq_some_iff.1 hp
    simp only [good, hother]
    exact reports_program s other
  obtain ⟨asked, noted, hreports, -, hnoted⟩ := Pool.tracked_after hstart schedule i _ hended
  simp only [good, hcall] at hreports
  obtain ⟨report⟩ := hnoted (hreports hgood)
  refine ⟨report, report.shown, fun hsmall => ?_⟩
  rw [report.shown, ← Pool.LastReport.askedOf, Metrics.reading_eq_self hsmall]
  exact Option.some_inj

/-- Two rules that are created at the same time. -/
def Call.twoCreates : List Call := [.create "a" ⟨0, 0⟩ "a = x", .create "b" ⟨0, 0⟩ "a = x"]

/-- The second rule is saved, counted and noted between the question and the note of the first. -/
theorem after_twoCreates :
    let record (id : String) : Record := ⟨id, "a = x", .leaf ⟨"a", .equal, .text "x"⟩, ⟨0, 0⟩⟩
    (Call.sideBySide {} Call.twoCreates ⟨.empty, .empty⟩).after Repository.ofStore
        [0, 0, 0, 1, 1, 1, 1, 0] =
      ⟨[.done (.record (.ok (record "a"))), .done (.record (.ok (record "b")))],
        (Store.empty.save (record "a")).save (record "b"), [.parsed "ok", .parsed "ok", .stored 2,
          .stored 1].foldl Metrics.note .empty⟩ := by
  have hparse : ({} : Settings).parser.parse "a = x" = .ok (.leaf ⟨"a", .equal, .text "x"⟩) := rfl
  -- each rule is read once, before the steps are taken
  simp only [Call.sideBySide, Call.twoCreates, Call.program, create, hparse, List.map_cons,
    List.map_nil]
  rfl

theorem gauge_shows_last_asked_created :
    ∃ report : Pool.LastReport (Call.sideBySide {} Call.twoCreates ⟨.empty, .empty⟩)
        [0, 0, 0, 1, 1, 1, 1, 0],
      let now := ((Call.sideBySide {} Call.twoCreates ⟨.empty, .empty⟩).after Repository.ofStore
        [0, 0, 0, 1, 1, 1, 1, 0]).world
      now.metrics.storedGauge = some (Metrics.reading report.askedOf.count) ∧
        (report.askedOf.count < Nat.pow 2 53 →
          (now.metrics.storedGauge = some now.state.count ↔
            report.askedOf.count = now.state.count)) := by
  have hcall : Call.twoCreates[0]? = some (.create "a" ⟨0, 0⟩ "a = x") := rfl
  have hended : ((Call.sideBySide {} Call.twoCreates ⟨.empty, .empty⟩).after
      Repository.ofStore [0, 0, 0, 1, 1, 1, 1, 0]).programs[0]? = some (.done
        (.record (.ok ⟨"a", "a = x", .leaf ⟨"a", .equal, .text "x"⟩, ⟨0, 0⟩⟩))) := by
    rw [after_twoCreates]
    rfl
  exact gauge_shows_last_asked hcall hended trivial

/-- The gauge may stay behind: two rules are created at the same time, and once both calls have
succeeded there are two rules, and the gauge shows one. -/
theorem gauge_stale_after_two_creates :
    let idle := (Call.sideBySide {} Call.twoCreates ⟨.empty, .empty⟩).after Repository.ofStore
      [0, 0, 0, 1, 1, 1, 1, 0]
    idle.programs.map Program.answer? =
        [some (.record (.ok ⟨"a", "a = x", .leaf ⟨"a", .equal, .text "x"⟩, ⟨0, 0⟩⟩)),
          some (.record (.ok ⟨"b", "a = x", .leaf ⟨"a", .equal, .text "x"⟩, ⟨0, 0⟩⟩))] ∧
      idle.world.state.count = 2 ∧ idle.world.metrics.storedGauge = some 1 := by
  rw [after_twoCreates]
  refine ⟨rfl, rfl, ?_⟩
  have hgauges : ([.parsed "ok", .parsed "ok", .stored 2, .stored 1].foldl Metrics.note
      .empty).gauges = [(⟨"rules_stored", []⟩, 1)] := rfl
  rw [Metrics.storedGauge, Metrics.gaugeReadings, hgauges, Metrics.lookup?_map, Metrics.lookup?,
    if_pos rfl, Option.map_some, Metrics.reading_eq_self (by decide)]

end Service

end Rulebook
