import Rulebook.Proofs.Combination
import Rulebook.Proofs.Meaning
import Rulebook.Proofs.Requests
import Rulebook.Proofs.Tokens

/-!
# The kinds of failures

Each operation fails with errors of few kinds, whatever it is given. What is wrong with the words or
tokens of a rule is syntactic, and never that the rule is empty: that is said of blank rules alone,
before they are read (`Parser.parse_failsWith`). The reader of tokens has a case of its own for a
rule that ends before it has begun, but a rule that is not blank has a token, and after any token
the rule has begun (`State.begun_of_step`).

The statuses of failed requests follow from the kinds (`failures_keep_their_kinds`).
-/

namespace Rulebook

/-- The error is one of what a rule says: syntactic, and not that there is no rule. -/
def Error.Misread (e : Error) : Prop := e.kind = .syntactic ∧ e ≠ .emptyRule

/-- The error is one of how deep something is. -/
def Error.TooDeep (e : Error) : Prop := ∃ depth limit, e = .depthExceeded depth limit

/-- The error is one of the words of a rule, whatever the limit is. -/
inductive Error.Misworded : Error → Prop
  | clause (clause : String) : Misworded (.malformedClause clause)
  | dangling (connective : String) (side : Side) : Misworded (.danglingConnective connective side)
  | comparison (word : String) : Misworded (.invalidComparison word)
  | unbalanced (detail : String) : Misworded (.unbalancedParentheses detail)

theorem Error.Misworded.misread {e : Error} (h : e.Misworded) : e.Misread := by
  cases h <;> exact ⟨rfl, Error.noConfusion⟩

theorem Error.Misworded.not_tooDeep {e : Error} (h : e.Misworded) : ¬e.TooDeep := by
  rintro ⟨depth, limit, rfl⟩
  cases h

/-! ## Reading -/

namespace Parsing

theorem clause_failsWith (words : List String) : FailsWith Error.Misworded (clause words) := by
  unfold clause
  split
  · split
    · exact .ok _
    · exact .error (.comparison _)
  · exact .error (.clause _)

/-- Reading up to the first connective. -/
theorem scan_failsWith (closed : List (Tree × Connective)) (opened words : List String) :
    FailsWith Error.Misworded (scan closed opened words) := by
  induction words generalizing closed opened with
  | nil => exact .bind (clause_failsWith _) fun tree _ => .ok _
  | cons word rest ih =>
    unfold scan
    split
    · exact ih closed (word :: opened)
    · split
      · exact .error (.dangling _ .left)
      · split
        · exact .error (.dangling _ .right)
        · exact .bind (clause_failsWith _) fun left _ => ih _ []

namespace State

/-- Something has been read: where a part is expected after no connective, a parenthesis is open. -/
def Begun (s : State) : Prop := s.phase = .part none → 0 < s.depth

theorem stepPart_ends (s : State) (after : Option Connective) (token : Token) :
    Ends Begun Error.Misworded (s.stepPart after token) := by
  cases token with
  | opening => exact fun _ => Nat.succ_pos s.depth
  | word text => exact fun hphase => nomatch hphase
  | connective c => cases after <;> exact .dangling ..
  | closing =>
    cases after with
    | none => exact .clause _
    | some a => exact .dangling ..

theorem stepJoint_ends (s : State) (tree : Tree) (rest : List Token) (token : Token) :
    Ends Begun Error.Misworded (s.stepJoint tree rest token) := by
  obtain ⟨outer, depth, level, phase⟩ := s
  cases token with
  | connective c => cases c <;> exact fun hphase => nomatch hphase
  | closing =>
    cases outer with
    | nil => exact .unbalanced _
    | cons level outer => exact fun hphase => nomatch hphase
  | opening | word text =>
    cases outer with
    | nil => exact .clause _
    | cons level outer => exact .unbalanced _

/-- After any token something has been read, unless the step fails. -/
theorem step_ends (s : State) (rest : List Token) (token : Token) :
    Ends Begun Error.Misworded (s.step rest token) := by
  obtain ⟨outer, depth, level, phase⟩ := s
  cases phase with
  | part after => exact stepPart_ends _ after token
  | joint tree => exact stepJoint_ends _ tree rest token
  | clause words =>
    cases token with
    | word text => exact fun hphase => nomatch hphase
    | opening | closing | connective c =>
      exact (clause_failsWith words.reverse).ends.bind fun tree _ => stepJoint_ends _ tree rest _

theorem finishLevel_failsWith (s : State) (tree : Tree) :
    FailsWith Error.Misworded (s.finishLevel tree) := by
  unfold finishLevel
  split
  · exact .ok _
  · exact .error (.unbalanced _)

variable {s : State}

theorem Begun.finish_failsWith (h : s.Begun) : FailsWith Error.Misworded s.finish := by
  unfold finish
  split
  · exact .error (.dangling ..)
  · next hphase =>
    rw [if_pos (h hphase)]
    exact .error (.unbalanced _)
  · exact .bind (clause_failsWith _) fun tree _ => finishLevel_failsWith s tree
  · exact finishLevel_failsWith s _

/-- A run that has begun fails with what the rule says, wherever it ends. -/
theorem Begun.run_failsWith (h : s.Begun) (tokens : List Token) :
    FailsWith Error.Misworded (s.run tokens) := by
  induction tokens generalizing s with
  | nil => exact h.finish_failsWith
  | cons token rest ih =>
    exact ((step_ends s rest token).bind fun next hnext => (ih hnext).ends).failsWith

end State

/-- Reading with precedence. Of no tokens at all it says that the rule is empty. -/
theorem precedence_misworded {tokens : List Token} (h : tokens ≠ []) :
    FailsWith Error.Misworded (precedence tokens) := by
  cases tokens with
  | nil => exact absurd rfl h
  | cons token rest =>
    have hrun := (State.step_ends .start rest token).bind fun next hnext =>
      (hnext.run_failsWith rest).ends
    exact hrun.failsWith

theorem precedence_failsWith {tokens : List Token} (h : tokens ≠ []) :
    FailsWith Error.Misread (precedence tokens) :=
  (precedence_misworded h).mono fun _ he => he.misread

end Parsing

namespace Parser

theorem checkDepth_failsWith (p : Parser) (depth : Nat) :
    FailsWith Error.Misread (p.checkDepth depth) := by
  unfold checkDepth
  split
  · exact .error ⟨rfl, Error.noConfusion⟩
  · exact .ok _

/-- A rule that is not blank fails with what it says. -/
theorem parse_failsWith (p : Parser) {rule : String} (h : ¬Text.allBlank rule) :
    FailsWith Error.Misread (p.parse rule) := by
  unfold parse
  rw [if_neg h]
  split
  · exact .bind (checkDepth_failsWith p _) fun _ _ =>
      (Parsing.scan_failsWith [] [] _).mono fun e he => he.misread
  · exact .bind (checkDepth_failsWith p _) fun _ _ =>
      Parsing.precedence_failsWith (mt Parsing.Token.ofRule_eq_nil_iff.1 h)

theorem parse_of_allBlank (p : Parser) {rule : String} (h : Text.allBlank rule) :
    p.parse rule = .error .emptyRule := by
  rw [parse, if_pos h]

theorem parse_eq_emptyRule_iff {p : Parser} {rule : String} :
    p.parse rule = .error .emptyRule ↔ Text.allBlank rule := by
  refine ⟨fun h => ?_, p.parse_of_allBlank⟩
  by_cases hblank : Text.allBlank rule
  · exact hblank
  · exact absurd rfl (p.parse_failsWith hblank _ h).2

theorem parse_failsWith_syntactic (p : Parser) (rule : String) :
    FailsWith (·.kind = .syntactic) (p.parse rule) := by
  by_cases h : Text.allBlank rule
  · rw [p.parse_of_allBlank h]
    exact .error rfl
  · exact (p.parse_failsWith h).mono fun e he => he.1

end Parser

/-! ## Combining, evaluating and loading -/

namespace Combiner

theorem combineTrees_failsWith (combiner : Combiner) {trees : List Tree} (h : trees ≠ []) :
    FailsWith (·.kind = .syntactic) (combiner.combineTrees trees) := by
  refine .bind ((combiner.parser.checkDepth_failsWith _).mono fun e he => he.1) fun _ _ => ?_
  cases trees with
  | nil => exact absurd rfl h
  | cons first rest =>
    rw [joinAll?_cons]
    exact .ok _

/-- No rules cannot be combined, and some rules fail as the first of them that cannot be read, or
with the depth. -/
theorem combine_failsWith (combiner : Combiner) (rules : List String) :
    FailsWith (·.kind = if rules = [] then .value else .syntactic) (combiner.combine rules) := by
  unfold combine
  cases rules with
  | nil => exact .error rfl
  | cons rule rules =>
    rw [List.isEmpty_cons, if_neg Bool.false_ne_true, if_neg (List.cons_ne_nil rule rules)]
    refine .bind ((combiner.parser.checkDepth_failsWith _).mono fun e he => he.1) fun _ _ => ?_
    refine .bind (.mapM fun rule _ => combiner.parser.parse_failsWith_syntactic rule) ?_
    intro trees htrees
    obtain ⟨first, rest, -, -, rfl⟩ := Except.mapM_cons_eq_ok.1 htrees
    exact combiner.combineTrees_failsWith (List.cons_ne_nil first rest)

end Combiner

/-- Evaluating fails where an attribute is missing, and only there. -/
theorem Tree.evaluate_failsWith (traced : Bool) (record : Json) (tree : Tree) :
    FailsWith (fun e => ∃ field, e = .fieldNotFound field) (tree.evaluate traced record) := by
  intro e h
  obtain ⟨c, -, rfl⟩ := Tree.evaluate_eq_error_iff.1 h
  exact ⟨c.field, rfl⟩

theorem Comparison.resolve_failsWith (word : String) :
    FailsWith (·.kind = .evaluation) (Comparison.resolve word) := by
  unfold resolve
  split
  · exact .ok _
  · exact .error rfl

theorem Connective.resolve_failsWith (word : String) :
    FailsWith (·.kind = .evaluation) (Connective.resolve word) := by
  unfold resolve
  split
  · exact .ok _
  · exact .error rfl

/-- Looking up the operators of a document fails with a word that is none. -/
theorem RawTree.resolve_failsWith (raw : RawTree) :
    FailsWith (·.kind = .evaluation) raw.resolve := by
  induction raw with
  | operand field sign value =>
    exact .bind (Comparison.resolve_failsWith sign) fun _ _ => .ok _
  | operator word left right ihl ihr =>
    refine .bind (Connective.resolve_failsWith word) fun connective _ => ?_
    exact .bind ihl fun _ _ => .bind ihr fun _ _ => .ok _

/-- The error is one of a document: it is too deep, or it is no tree, or an operator in it is not
known, or an attribute is missing that it asks for. -/
def Error.OfDocument (e : Error) : Prop :=
  (∃ depth limit, e = .depthExceeded depth limit) ∨ e.kind = .serialization ∨ e.kind = .evaluation

theorem Tree.load_failsWith (limit : Nat) (value : Json) :
    FailsWith Error.OfDocument (Tree.load limit value) := by
  simp only [load]
  split
  · exact .error (.inl ⟨_, _, rfl⟩)
  · cases RawTree.load false value with
    | error fault => exact .error (.inr (.inl rfl))
    | ok raw => exact raw.resolve_failsWith.mono fun e he => .inr (.inr he)

/-! ## The service -/

/-- A record is not found exactly where there is none. -/
theorem Store.demand_failsWith (s : Store) (id : String) :
    FailsWith (fun e => e = .ruleNotFound id ∧ s.get? id = none) (s.demand id) := by
  rw [demand]
  cases hfound : s.get? id with
  | some record => exact .ok _
  | none => exact .error ⟨rfl, rfl⟩

namespace Service

open Program

variable {s : Settings} {id : String} {data : Json} {w : World Store}

/-- Evaluating a rule that is to be found. -/
theorem run_evaluate_fst : ((evaluate s id data).run Repository.ofStore w).1 =
    w.state.demand id >>= fun record => record.tree.evaluate s.traced data := by
  rw [evaluate, run_bind, run_fetch]
  cases w.state.demand id with
  | ok record => rfl
  | error e => rfl

/-- Evaluating a document that is to be loaded. -/
theorem run_evaluateDocument_fst {σ : Type} {r : Repository σ} {w : World σ} {value : Json} :
    ((evaluateDocument s value data).run r w).1 =
      Tree.load s.maxDepth value >>= fun tree => tree.evaluate s.traced data := by
  rw [evaluateDocument]
  cases Tree.load s.maxDepth value with
  | ok tree => rfl
  | error e => rfl

/-- Of evaluating a rule that is kept. -/
theorem evaluate_failsWith (s : Settings) (kept : Store) (id : String) (data : Json) :
    FailsWith (fun e => e.kind = .notFound ∧ kept.get? id = none ∨ e.kind = .evaluation)
      (kept.demand id >>= fun record => record.tree.evaluate s.traced data) := by
  refine .bind ((kept.demand_failsWith id).mono ?_) fun record _ =>
    (record.tree.evaluate_failsWith s.traced data).mono ?_
  · rintro e ⟨rfl, hnone⟩
    exact .inl ⟨rfl, hnone⟩
  · rintro e ⟨field, rfl⟩
    exact .inr rfl

theorem evaluateDocument_failsWith (s : Settings) (value data : Json) :
    FailsWith Error.OfDocument
      (Tree.load s.maxDepth value >>= fun tree => tree.evaluate s.traced data) := by
  refine .bind (Tree.load_failsWith s.maxDepth value) fun tree _ =>
    (tree.evaluate_failsWith s.traced data).mono ?_
  rintro e ⟨field, rfl⟩
  exact .inr (.inr rfl)

/-- Evaluating a rule says that it is not found exactly if it is not kept. -/
theorem evaluate_notFound_iff :
    (∃ e, ((evaluate s id data).run Repository.ofStore w).1 = .error e ∧ e.kind = .notFound) ↔
      w.state.get? id = none := by
  rw [run_evaluate_fst]
  refine ⟨?_, fun hnone => ⟨.ruleNotFound id, by rw [Store.demand, hnone]; rfl, rfl⟩⟩
  rintro ⟨e, h, hkind⟩
  rcases evaluate_failsWith s w.state id data e h with ⟨-, hnone⟩ | hother
  · exact hnone
  · cases hkind.symm.trans hother

/-- The statuses of the answers to a call that fails. -/
def Call.failureStatuses : Call → List Nat
  | .create .. | .combine _ => [400]
  | .evaluate .. => [404, 422]
  | .evaluateDocument .. => [400, 422]
  | .fetch _ | .delete _ => [404]
  | .list => []

/-- What a call fails with has one of the statuses of the call. -/
theorem Call.status_of_failure {call : Call} {kept : Store} {e : Error}
    (h : (call.answerOn s kept).failure? = some e) :
    Http.Refusal.statusOfKind e.kind ∈ call.failureStatuses := by
  cases call with
  | create id now rule =>
    rw [answerOn, Answer.failure?, failure?_map, failure?_eq_some] at h
    rw [s.parser.parse_failsWith_syntactic rule e h]
    exact List.mem_singleton.2 rfl
  | combine rules =>
    have hkind := s.combiner.combine_failsWith rules e (failure?_eq_some.1 h)
    rw [hkind]
    split <;> exact List.mem_singleton.2 rfl
  | evaluate id data =>
    rcases evaluate_failsWith s kept id data e (failure?_eq_some.1 h) with ⟨hkind, -⟩ | hkind
    · rw [hkind]
      exact List.mem_cons_self ..
    · rw [hkind]
      exact List.mem_cons_of_mem _ (List.mem_singleton.2 rfl)
  | evaluateDocument value data =>
    rcases evaluateDocument_failsWith s value data e (failure?_eq_some.1 h) with
      ⟨depth, limit, rfl⟩ | hkind | hkind
    · exact List.mem_cons_self ..
    · rw [hkind]
      exact List.mem_cons_self ..
    · rw [hkind]
      exact List.mem_cons_of_mem _ (List.mem_singleton.2 rfl)
  | fetch id =>
    obtain ⟨rfl, -⟩ := kept.demand_failsWith id e (failure?_eq_some.1 h)
    exact List.mem_singleton.2 rfl
  | list => cases h
  | delete id =>
    rw [answerOn, Answer.failure?, failure?_map, failure?_eq_some] at h
    obtain ⟨rfl, -⟩ := kept.demand_failsWith id e h
    exact List.mem_singleton.2 rfl

/-- **Failures keep to their kinds.** A rule that cannot be read is a syntactic error, and the error
is that the rule is empty exactly for a blank rule; the tokens of any other rule never give it. To
combine no rules is an error of value, and rules that cannot be combined are a syntactic one. Trees
fail where an attribute is missing. A kept rule is not found exactly if it is not kept, and else
fails as its tree; a document may be too deep, not be a tree, or fail as one. So the status of a
request that makes a call is 200, or one of those of the call. -/
theorem failures_keep_their_kinds (s : Settings) :
    (∀ (p : Parser) (rule : String),
      (∀ e, p.parse rule = .error e → e.kind = .syntactic) ∧
      (p.parse rule = .error .emptyRule ↔ Text.allBlank rule) ∧
      (∀ word, p.parse rule ≠ .error (.unsupportedOperator word)) ∧
      (¬Text.allBlank rule →
        Parsing.precedence (Parsing.Token.ofRule rule) ≠ .error .emptyRule)) ∧
    (∀ (combiner : Combiner) (rules : List String),
      (∀ e, combiner.combine rules = .error e →
        (e.kind = .value ↔ rules = []) ∧ (rules ≠ [] → e.kind = .syntactic)) ∧
      ∃ e, combiner.combine [] = .error e) ∧
    (∀ (traced : Bool) (record : Json) (tree : Tree) (e : Error),
      tree.evaluate traced record = .error e → ∃ field, e = .fieldNotFound field) ∧
    (∀ (w : World Store) (id : String) (data : Json),
      ((∃ e, ((evaluate s id data).run Repository.ofStore w).1 = .error e ∧
        e.kind = .notFound) ↔ w.state.get? id = none) ∧
      ∀ e, ((evaluate s id data).run Repository.ofStore w).1 = .error e →
        e.kind = .notFound ∨ e.kind = .evaluation) ∧
    (∀ (w : World Store) (value data : Json) (e : Error),
      ((evaluateDocument s value data).run Repository.ofStore w).1 = .error e →
        (∃ depth limit, e = .depthExceeded depth limit) ∨ e.kind = .serialization ∨
          e.kind = .evaluation) ∧
    ∀ (fresh : Http.Fresh) (r : Http.Request) (call : Call) (w : World Store),
      Http.Makes fresh r call →
        match ((call.program s).run Repository.ofStore w).1.failure? with
        | none => ((Http.serve s fresh r).run Repository.ofStore w).1.status = 200
        | some _ =>
          ((Http.serve s fresh r).run Repository.ofStore w).1.status ∈ call.failureStatuses := by
  refine ⟨fun p rule => ⟨p.parse_failsWith_syntactic rule, p.parse_eq_emptyRule_iff, ?_, ?_⟩,
    fun combiner rules => ⟨fun e h => ?_, _, rfl⟩, Tree.evaluate_failsWith,
    fun w id data => ⟨evaluate_notFound_iff, fun e h => ?_⟩, fun w value data e h => ?_,
    fun fresh r call w h => ?_⟩
  · intro word h
    cases p.parse_failsWith_syntactic rule _ h
  · intro hblank h
    have htokens := mt Parsing.Token.ofRule_eq_nil_iff.1 hblank
    exact (Parsing.precedence_failsWith htokens _ h).2 rfl
  · have hkind := combiner.combine_failsWith rules e h
    rw [hkind]
    split
    · next hrules => exact ⟨iff_of_true rfl hrules, absurd hrules⟩
    · next hrules => exact ⟨iff_of_false (fun heq => nomatch heq) hrules, fun _ => rfl⟩
  · rw [run_evaluate_fst] at h
    exact (evaluate_failsWith s w.state id data e h).imp_left And.left
  · rw [run_evaluateDocument_fst] at h
    exact evaluateDocument_failsWith s value data e h
  · rw [Call.run_program, h.status_serve]
    cases hfails : (call.answerOn s w.state).failure? with
    | none => rfl
    | some e => exact Call.status_of_failure hfails

/-- A pair of parentheses, no rules, an attribute that is missing, a rule and a tree that are not
there, and a rule that is asked to be kept and ends with a connective. -/
theorem failures_keep_their_kinds_each :
    let nothing : World Store := ⟨.empty, .empty⟩
    (∃ e, (⟨.precedence, 100⟩ : Parser).parse "()" = .error e ∧ e.kind = .syntactic) ∧
    (∃ e, ({} : Combiner).combine [] = .error e ∧ e.kind = .value) ∧
    (∃ e, (Tree.leaf ⟨"a", .less, .text "b"⟩).evaluate false (.object []) = .error e ∧
      ∃ field, e = .fieldNotFound field) ∧
    (∃ e, ((evaluate {} "r" (.object [])).run Repository.ofStore nothing).1 = .error e ∧
      e.kind = .notFound) ∧
    (∃ e, ((evaluateDocument {} .null (.object [])).run Repository.ofStore nothing).1 = .error e ∧
      ((∃ depth limit, e = .depthExceeded depth limit) ∨ e.kind = .serialization ∨
        e.kind = .evaluation)) ∧
    ((Http.serve {} ⟨"r", "q", ⟨0, 0⟩⟩ (.posting "/api/rules/create"
      (Http.CreateRequest.document "a = x AND"))).run Repository.ofStore nothing).1.status ∈
        [400] := by
  intro nothing
  obtain ⟨hparse, hcombine, hevaluate, hkept, hdocument, hserve⟩ := failures_keep_their_kinds {}
  have hposted : Http.Makes ⟨"r", "q", ⟨0, 0⟩⟩
      (.posting "/api/rules/create" (Http.CreateRequest.document "a = x AND"))
      (.create "r" ⟨0, 0⟩ "a = x AND") := .posting (by decide) (by decide)
  have hpair : (⟨.precedence, 100⟩ : Parser).parse "()" = .error (.malformedClause "()") := rfl
  have hnone : ({} : Combiner).combine [] = .error Combiner.noRules := rfl
  have hleaf : (Tree.leaf ⟨"a", .less, .text "b"⟩).evaluate false (.object []) =
      .error (.fieldNotFound "a") := rfl
  have hnull : ((evaluateDocument {} .null (.object [])).run Repository.ofStore nothing).1 =
      .error (.badDocument (.wrongType .null "internally tagged enum RawNode")) := rfl
  exact ⟨⟨_, hpair, (hparse _ _).1 _ hpair⟩, ⟨_, hnone, ((hcombine _ _).1 _ hnone).1.2 rfl⟩,
    ⟨_, hleaf, hevaluate _ _ _ _ hleaf⟩, (hkept nothing "r" _).1.2 rfl,
    ⟨_, hnull, hdocument nothing _ _ _ hnull⟩, hserve _ _ _ nothing hposted⟩

end Service

end Rulebook
