import Rulebook.Proofs.Calls
import Rulebook.Proofs.Documents

/-!
# All ways of evaluating a rule agree

A rule that was created is evaluated as the tree that was read from it, however long ago that was
and whatever was called since, and as its document is evaluated: the limit that admitted the rule
admits the document (`Parser.parse_within`, `load_toJson`). For a combination there is no record,
and its document is evaluated as the combination (`Combiner.combine_within`).
-/

namespace Rulebook.Service

open Program

variable {s : Settings}

/-- A created rule is found by its identifier after all calls that spare it. -/
theorem get?_after_create {w v : World Store} {id : String} {now : Timestamp} {rule : String}
    {record : Record} (h : (create s id now rule).run Repository.ofStore w = (.ok record, v))
    {calls : List Call} (hcalls : ∀ call ∈ calls, call.Spares record.id) :
    (runCalls s Repository.ofStore v calls).2.state.get? record.id = some record := by
  obtain ⟨tree, -, -, rfl⟩ := run_create_eq_ok.1 h
  rw [get?_runCalls hcalls, Store.get?_save, if_pos rfl]

/-- **All ways of evaluating a rule agree.** Whatever the settings are, a rule that is created reads
as a tree, and it stays what it is until a call deletes it or creates another rule under its
identifier. While it is kept, evaluating it by its identifier gives what the tree evaluates to,
with the same conditions and lines or the same error, and so does evaluating its document. What is
combined is accepted as a document and is evaluated as the combination. -/
theorem evaluations_agree :
    (∀ (w v : World Store) (id : String) (now : Timestamp) (rule : String) (record : Record),
      (create s id now rule).run Repository.ofStore w = (.ok record, v) →
      ∃ tree, s.parser.parse rule = .ok tree ∧
        (∀ calls : List Call, (∀ call ∈ calls, call.Spares record.id) →
          (runCalls s Repository.ofStore v calls).2.state.get? record.id = some record) ∧
        (∀ (u : World Store) (data : Json), u.state.get? record.id = some record →
          ((evaluate s record.id data).run Repository.ofStore u).1 =
            tree.evaluate s.traced data) ∧
        ∀ (u : World Store) (data : Json),
          ((evaluateDocument s record.tree.toJson data).run Repository.ofStore u).1 =
            tree.evaluate s.traced data) ∧
    ∀ (w v : World Store) (rules : List String) (tree : Tree),
      (combine s rules).run Repository.ofStore w = (.ok tree, v) →
      Tree.load s.maxDepth tree.toJson = .ok tree ∧
      ∀ (u : World Store) (data : Json),
        ((evaluateDocument s tree.toJson data).run Repository.ofStore u).1 =
          tree.evaluate s.traced data := by
  refine ⟨fun w v id now rule record h => ?_, fun w v rules tree h => ?_⟩
  · obtain ⟨tree, hparse, rfl, -⟩ := run_create_eq_ok.1 h
    have hload := (Parser.parse_within hparse).load_toJson
    refine ⟨tree, hparse, fun calls hcalls => get?_after_create h hcalls, fun u data hkept => ?_,
      fun u data => ?_⟩
    · rw [run_evaluate hkept, run_evaluateTree]
    · rw [evaluateDocument_of_load hload, run_evaluateTree]
  · rw [run_combine] at h
    have hload := (Combiner.combine_within (congrArg Prod.fst h)).load_toJson
    refine ⟨hload, fun u data => ?_⟩
    rw [evaluateDocument_of_load hload, run_evaluateTree]

/-- A rule is created, others are called for, and it is evaluated. -/
theorem evaluations_agree_after_calls :
    ((evaluate {} "r" (.object [("a", .text "30")])).run Repository.ofStore
      (runCalls {} Repository.ofStore
        ((create {} "r" ⟨0, 0⟩ "a = '30'").run Repository.ofStore ⟨.empty, .empty⟩).2
        [.create "s" ⟨1, 0⟩ "b > 2", .delete "q"]).2).1 =
      (Tree.leaf ⟨"a", .equal, .text "30"⟩).evaluate false (.object [("a", .text "30")]) ∧
    ((evaluateDocument {} (Tree.leaf ⟨"a", .equal, .text "30"⟩).toJson
      (.object [("a", .text "30")])).run Repository.ofStore ⟨.empty, .empty⟩).1 =
      (Tree.leaf ⟨"a", .equal, .text "30"⟩).evaluate false (.object [("a", .text "30")]) ∧
    Tree.load 100 (Tree.leaf ⟨"a", .equal, .text "30"⟩).toJson =
      .ok (.leaf ⟨"a", .equal, .text "30"⟩) := by
  have hparse : ({} : Settings).parser.parse "a = '30'" =
      .ok (.leaf ⟨"a", .equal, .text "30"⟩) := rfl
  have hcreate : (create {} "r" ⟨0, 0⟩ "a = '30'").run Repository.ofStore ⟨.empty, .empty⟩ =
      (.ok ⟨"r", "a = '30'", .leaf ⟨"a", .equal, .text "30"⟩, ⟨0, 0⟩⟩,
        ((create {} "r" ⟨0, 0⟩ "a = '30'").run Repository.ofStore ⟨.empty, .empty⟩).2) := by
    rw [create, hparse]
    rfl
  have hcombine : ({} : Settings).combiner.combine ["a = '30'"] =
      .ok (.leaf ⟨"a", .equal, .text "30"⟩) :=
    Combiner.combine_eq_ok.2 ⟨List.cons_ne_nil _ _, by decide, [_], rfl,
      Combiner.combineTrees_eq_ok.2 ⟨_, [], rfl, rfl, by decide⟩⟩
  obtain ⟨tree, hread, hkept, hevaluate, hdocument⟩ := evaluations_agree.1 _ _ _ _ _ _ hcreate
  obtain ⟨hload, -⟩ := evaluations_agree.2 ⟨.empty, .empty⟩ _ ["a = '30'"] _
    (by rw [run_combine, hcombine])
  cases hread.symm.trans hparse
  refine ⟨hevaluate _ _ (hkept _ fun call hcall => ?_), hdocument _ _, hload⟩
  rcases List.mem_cons.1 hcall with rfl | hcall
  · exact show "s" ≠ "r" by decide
  · rw [List.mem_singleton.1 hcall]
    exact show "q" ≠ "r" by decide

end Rulebook.Service
