import Rulebook.Http.Body
import Rulebook.Proofs.Decoding
import Rulebook.Proofs.FirstConnective
import Rulebook.Proofs.Running
import Rulebook.Proofs.Timestamps
import Rulebook.Proofs.Tokens
import Rulebook.Proofs.TreeText

/-!
# Created rules are reloaded

A record is an object around its tree, and so is a request that gives the tree: either leaves the
tree one level less than a document may have. A created rule is therefore read again from its
record, and its tree from a request, exactly if the tree is less deep than documents may be nested;
what is read are the numbers that its text gives, and so the record comes back as it was exactly if
its numbers are read back (`Record.read_serialize`, `Http.EvaluateTreeRequest.read_document`). How
deep a rule may be is a setting of its own, and every limit is reached by some rule
(`Parser.parse_repeated`); so all rules that can be created with such numbers can be reloaded
exactly under the limits below that of documents (`Service.created_reloads_iff`).
-/

namespace Rulebook

/-! ## Structures around a tree -/

/-- A structure is read from the text of a document as it is from its values. -/
theorem Form.read_print {α : Type} (form : Form α) (start : α) {value : Json} (h : value.InRange) :
    form.read start value.print = form.ofSource start value.source := by
  rw [read, readSymbols, Source.ofSymbols_print h]
  dsimp only
  cases form.ofSource start value.source <;> rfl

/-- So it is from the bytes of the text. -/
theorem Form.readSymbols_print {α : Type} (form : Form α) (start : α) {value : Json}
    (h : value.InRange) :
    form.readSymbols start (Text.decode value.print.toUTF8) = form.ofSource start value.source := by
  rw [Text.decode_toUTF8]
  exact form.read_print start h

/-- A text is a single value. -/
theorem Source.single_text {α : Type} (read : Json → Except Fault α) (value : String) :
    (Json.text value).source.single read = Except.orFault (read (.text value)) := rfl

/-- A tree inside a structure is read if the structure leaves it enough levels. -/
theorem Tree.ofSource_inside {tree : Tree} (h : tree.isFinite) :
    Tree.ofSource (Source.nestingLimit - 1) tree.document.source =
      Except.ofOption (.failure .malformed)
        (if tree.depth < Source.nestingLimit then tree.reread? else none) := by
  rw [Tree.ofSource_document h]
  simp only [Nat.le_sub_one_iff_lt (by decide : 0 < Source.nestingLimit)]

/-- A document inside a structure is read if the structure leaves it enough levels. -/
theorem Source.readAny_source (value : Json) :
    value.source.readAny =
      Except.ofOption (.failure .malformed)
        (if value.nesting < nestingLimit then value.reread?.map Json.canonical else none) := by
  rw [readAny, content_source, Except.orFailure_ofOption]
  simp only [Nat.le_sub_one_iff_lt (by decide : 0 < nestingLimit)]
  split
  · cases value.reread? <;> rfl
  · rfl

namespace Record

/-- The members of a record are read in their order. -/
theorem readMembers_form (id rule tree time : Source) (now : Timestamp) :
    Form.readMembers form.fields [] ⟨none, none, none, now⟩
      [(.ok "id", id), (.ok "rule_string", rule), (.ok "ast", tree), (.ok "created_at", time)] = do
    let id ← id.single Json.asText
    let rule ← rule.single Json.asText
    let tree ← Tree.ofSource (Source.nestingLimit - 1) tree
    let time ← time.single Timestamp.ofJson
    return (["created_at", "ast", "rule_string", "id"], ⟨some id, some rule, some tree, time⟩) := by
  simp [form, Form.readMembers, Except.orFailure]

/-- A record is written with numbers that documents can hold. -/
theorem inRange_document {record : Record} (h : record.tree.isFinite) :
    record.document.InRange := by
  rw [document, Json.inRange_object]
  simp [Tree.inRange_text, Tree.inRange_document h]

/-- A record is read from its text if its tree leaves one level for the record, with the numbers
of the tree read again. -/
theorem read_serialize {record : Record} (htree : record.tree.isFinite)
    (htime : record.createdAt.Valid) (now : Timestamp) :
    read now record.serialize =
      Except.ofOption (.failure .malformed)
        (if record.tree.depth < Source.nestingLimit then
          record.tree.reread?.map fun tree => { record with tree }
        else none) := by
  have htime : Timestamp.ofJson (.text record.createdAt.print) = .ok record.createdAt := by
    rw [Timestamp.ofJson, Timestamp.read_print htime]
  rw [read, serialize, Form.read_print form _ (inRange_document htree), document, Json.source,
    Form.ofSource]
  simp only [Json.memberSources]
  rw [readMembers_form, Source.single_text, Source.single_text, Source.single_text, htime,
    Tree.ofSource_inside htree]
  split
  · cases record.tree.reread? <;> rfl
  · rfl

/-- A record comes back from its text as it was exactly if its tree leaves one level for the record
and its numbers are read back. -/
theorem read_serialize_eq_ok_iff {record : Record} (htree : record.tree.isFinite)
    (htime : record.createdAt.Valid) (now : Timestamp) :
    read now record.serialize = .ok record ↔
      record.tree.depth < Source.nestingLimit ∧ record.tree.ReadsBack := by
  rw [read_serialize htree htime, Except.ofOption_eq_ok]
  by_cases hdepth : record.tree.depth < Source.nestingLimit
  · rw [if_pos hdepth, and_iff_right hdepth, Option.map_eq_some_iff, Tree.ReadsBack]
    refine ⟨?_, ?_⟩
    · rintro ⟨tree, hreread, heq⟩
      have hsame : tree = record.tree := congrArg Record.tree heq
      rwa [hsame] at hreread
    · intro h
      exact ⟨_, h, rfl⟩
  · rw [if_neg hdepth]
    refine iff_of_false ?_ fun h => hdepth h.1
    rintro ⟨⟩

end Record

namespace Http

/-- The document of a request that gives a tree. -/
def EvaluateTreeRequest.document (tree : Tree) (data : Json) : Json :=
  .object [("ast", tree.document), ("data", data)]

/-- The members of a request that gives a tree are read in their order. -/
theorem EvaluateTreeRequest.readMembers_form (tree data : Source) (start : EvaluateTreeRequest) :
    Form.readMembers form.fields [] start [(.ok "ast", tree), (.ok "data", data)] = do
    let tree ← tree.readAny
    let data ← data.readAny
    return (["data", "ast"], ⟨tree, data⟩) := by
  simp [form, Form.readMembers, Except.orFailure]

/-- A request that gives a tree is read from the bytes of its text if both the tree and the data
leave one level for the request, with the numbers of both read again. -/
theorem EvaluateTreeRequest.read_document {tree : Tree} {data : Json} (htree : tree.isFinite)
    (hdata : data.InRange) (start : EvaluateTreeRequest) :
    form.readSymbols start (Text.decode (document tree data).print.toUTF8) =
      Except.ofOption (.failure .malformed)
        (if tree.depth < Source.nestingLimit ∧ data.nesting < Source.nestingLimit then
          tree.reread?.bind fun tree =>
            data.reread?.map fun data => ⟨tree.toJson, data.canonical⟩
        else none) := by
  obtain ⟨hreread, -⟩ := Tree.reread_document htree
  have hrange : (document tree data).InRange := by
    rw [document, Json.inRange_object]
    simp [Tree.inRange_document htree, hdata]
  rw [Form.readSymbols_print form start hrange, document, Json.source, Form.ofSource]
  simp only [Json.memberSources]
  rw [readMembers_form, Source.readAny_source, Source.readAny_source, Tree.nesting_document,
    Tree.depth_eq_height, hreread]
  by_cases hdepth : tree.height < Source.nestingLimit
  · by_cases hnesting : data.nesting < Source.nestingLimit
    · rw [if_pos hdepth, if_pos hnesting, if_pos ⟨hdepth, hnesting⟩]
      cases tree.reread? with
      | none => rfl
      | some tree => cases data.reread? <;> rfl
    · rw [if_pos hdepth, if_neg hnesting, if_neg (mt And.right hnesting)]
      cases tree.reread? <;> rfl
  · rw [if_neg hdepth, if_neg (mt And.left hdepth)]
    rfl

end Http

/-! ## Rules as deep as a limit admits -/

namespace Parsing

/-- A clause that is repeated so many times, with a connective before each repetition. -/
def repeated : Nat → String
  | 0 => "a = x"
  | n + 1 => "a = x AND" ++ " " ++ repeated n

theorem readsBack_clause : (Tree.leaf ⟨"a", .equal, .text "x"⟩).ReadsBack :=
  Tree.readsBack_leaf.2 (Literal.readsBack_text "x")

theorem climbs_repeated (n : Nat) :
    ∃ steps last, steps.length = n ∧ (Tree.ladder last steps).ReadsBack ∧
      Climbs (Text.words (repeated n)) steps last := by
  induction n with
  | zero => exact ⟨[], _, rfl, readsBack_clause, .last .equal rfl rfl⟩
  | succ n ih =>
    obtain ⟨steps, last, hlength, hback, hclimbs⟩ := ih
    have hwords : Text.words (repeated (n + 1)) =
        "a" :: Comparison.equal.sign :: "x" :: Connective.and.word :: Text.words (repeated n) := by
      rw [repeated, Text.words_blank]
      rfl
    rw [hwords]
    exact ⟨_ :: steps, last, by rw [List.length_cons, hlength],
      Tree.readsBack_join.2 ⟨readsBack_clause, hback⟩, .step .equal .and rfl rfl hclimbs⟩

theorem ofRule_repeated (n : Nat) :
    Token.ofRule (repeated (n + 1)) = .word "a" :: .word "=" :: .word "x" :: .connective .and ::
      Token.ofRule (repeated n) := by
  rw [repeated, Token.ofRule_blank]
  rfl

theorem depthBound_repeated (n : Nat) : depthBound (Token.ofRule (repeated n)) = n + 1 := by
  have hjoints : joints (Token.ofRule (repeated n)) = n := by
    induction n with
    | zero => rfl
    | succ n ih =>
      rw [ofRule_repeated]
      exact congrArg (· + 1) ih
  have hnesting : nesting 0 (Token.ofRule (repeated n)) = 0 := by
    clear hjoints
    induction n with
    | zero => rfl
    | succ n ih =>
      rw [ofRule_repeated]
      exact ih
  rw [depthBound, hjoints, hnesting, Nat.max_zero]

theorem derives_clause : Derives .part [.word "a", .word "=", .word "x"]
    (.leaf ⟨"a", .equal, .text "x"⟩) := .clause "a" .equal "x"

/-- The clauses to come are hung on what has been read, each a level above the one before. -/
theorem derives_repeated (n : Nat) {front : List Token} {left : Tree}
    (h : Derives .conjunction front left) :
    ∃ tree, Derives .conjunction (front ++ .connective .and :: Token.ofRule (repeated n)) tree ∧
      tree.height = left.height + n + 1 ∧ (left.ReadsBack → tree.ReadsBack) := by
  have hjoin (left : Tree) :
      (Tree.join .and left (.leaf ⟨"a", .equal, .text "x"⟩)).height = left.height + 1 := by
    have := left.height_pos
    rw [Tree.height, Tree.height]
    omega
  -- one more clause goes to what has been read, before those that are left are
  induction n generalizing front left with
  | zero => exact ⟨_, .and h derives_clause, hjoin left, fun hleft =>
      Tree.readsBack_join.2 ⟨hleft, readsBack_clause⟩⟩
  | succ n ih =>
    obtain ⟨tree, hderives, htree, hback⟩ := ih (.and h derives_clause)
    refine ⟨tree, ?_, by rw [htree, hjoin]; omega, fun hleft =>
      hback (Tree.readsBack_join.2 ⟨hleft, readsBack_clause⟩)⟩
    rw [ofRule_repeated]
    rwa [List.append_assoc] at hderives

end Parsing

/-- A rule of so many clauses is read by every parser that admits their number, and its tree is as
deep and is read back. -/
theorem Parser.parse_repeated {p : Parser} {n : Nat} (h : n < p.maxDepth) :
    ∃ tree, p.parse (Parsing.repeated n) = .ok tree ∧ tree.depth = n + 1 ∧ tree.ReadsBack := by
  obtain ⟨mode, limit⟩ := p
  simp only [Tree.depth_eq_height]
  cases mode with
  | firstMatch =>
    obtain ⟨steps, last, hlength, hback, hclimbs⟩ := Parsing.climbs_repeated n
    refine ⟨Tree.ladder last steps, ?_, by rw [Tree.height_ladder, hlength], hback⟩
    exact Parsing.parse_firstMatch_eq_ok_iff_climbs.2
      ⟨steps, last, by rw [hlength]; exact h, hclimbs, rfl⟩
  | precedence =>
    have hbound : Parsing.depthBound (Parsing.Token.ofRule (Parsing.repeated n)) ≤ limit := by
      rw [Parsing.depthBound_repeated]
      exact h
    cases n with
    | zero => exact ⟨_, Parsing.parse_precedence_eq_ok.2
        ⟨hbound, .conjunction (.part Parsing.derives_clause)⟩, rfl, Parsing.readsBack_clause⟩
    | succ n =>
      obtain ⟨tree, hderives, hheight, hback⟩ :=
        Parsing.derives_repeated n (.part Parsing.derives_clause)
      refine ⟨tree, Parsing.parse_precedence_eq_ok.2 ⟨hbound, ?_⟩, ?_,
        hback Parsing.readsBack_clause⟩
      · rw [Parsing.ofRule_repeated]
        exact .conjunction hderives
      · rw [hheight, Tree.height]
        omega

/-! ## Created rules -/

theorem Settings.maxDepth_ofEngine {engine : Config.Engine} {s : Settings}
    (h : ofEngine engine = .ok s) : s.maxDepth = engine.maxDepth := by
  rw [ofEngine] at h
  split at h
  · cases h
  · obtain ⟨mode, -, h⟩ := Except.bind_eq_ok.1 h
    obtain ⟨strategy, -, h⟩ := Except.bind_eq_ok.1 h
    cases h
    rfl

/-- The start of 1970 is a time that the calendar has. -/
theorem Timestamp.valid_epoch : (⟨0, 0⟩ : Timestamp).Valid := ⟨by decide, .inl (by decide)⟩

namespace Service

open Program Http Timestamp

/-- A created rule of so many clauses has a record whose tree is as deep. -/
theorem run_create_repeated {s : Settings} {n : Nat} (h : n < s.maxDepth) (id : String)
    (now : Timestamp) :
    ∃ record v, (create s id now (Parsing.repeated n)).run Repository.ofStore ⟨.empty, .empty⟩ =
      (.ok record, v) ∧ record.tree.depth = n + 1 ∧ record.tree.isFinite ∧ record.tree.ReadsBack ∧
        record.createdAt = now := by
  obtain ⟨tree, hparse, hdepth, hback⟩ := Parser.parse_repeated (p := s.parser) h
  exact ⟨_, _, run_create_eq_ok.2 ⟨tree, hparse, rfl, rfl⟩, hdepth,
    (Parser.parse_within hparse).isFinite, hback, rfl⟩

/-- **Created rules are reloaded if their trees leave a level to what holds them and their numbers
are read back.** The record of a created rule is read from its text, with its numbers read again, if
the tree is less deep than documents may be nested, and so is a request that gives the tree, if its
data is; otherwise the text is not a document. So the record comes back as it was exactly if its
tree is less deep and its numbers are read back; and all rules that can be created with such numbers
can be reloaded exactly if the limit of the settings is below that of documents. -/
theorem created_reloads_iff {engine : Config.Engine} {s : Settings}
    (hs : Settings.ofEngine engine = .ok s) :
    (∀ (σ : Type) (r : Repository σ) (w v : World σ) (id rule : String) (now : Timestamp)
      (record : Record), now.Valid → (create s id now rule).run r w = (.ok record, v) →
      (∀ later, Record.read later record.serialize =
        Except.ofOption (.failure .malformed)
          (if record.tree.depth < Source.nestingLimit then
            record.tree.reread?.map fun tree => { record with tree }
          else none)) ∧
      (∀ later, Record.read later record.serialize = .ok record ↔
        record.tree.depth < Source.nestingLimit ∧ record.tree.ReadsBack) ∧
      ∀ (data : Json) (start : EvaluateTreeRequest), data.InRange →
        EvaluateTreeRequest.form.readSymbols start
            (Text.decode (EvaluateTreeRequest.document record.tree data).print.toUTF8) =
          Except.ofOption (.failure .malformed)
            (if record.tree.depth < Source.nestingLimit ∧ data.nesting < Source.nestingLimit then
              record.tree.reread?.bind fun tree =>
                data.reread?.map fun data => ⟨tree.toJson, data.canonical⟩
            else none)) ∧
    (engine.maxDepth < Source.nestingLimit ↔
      ∀ (σ : Type) (r : Repository σ) (w v : World σ) (id rule : String) (now : Timestamp)
        (record : Record), now.Valid → (create s id now rule).run r w = (.ok record, v) →
        record.tree.ReadsBack →
        (∀ later, Record.read later record.serialize = .ok record) ∧
        ∀ (data : Json) (start : EvaluateTreeRequest), data.InRange →
          data.nesting < Source.nestingLimit → data.reread? = some data →
          EvaluateTreeRequest.form.readSymbols start
              (Text.decode (EvaluateTreeRequest.document record.tree data).print.toUTF8) =
            .ok ⟨record.tree.toJson, data.canonical⟩) := by
  have hmaxDepth := Settings.maxDepth_ofEngine hs
  refine ⟨?_, ?_, ?_⟩
  · intro σ r w v id rule now record hnow hcreate
    obtain ⟨tree, hparse, rfl⟩ := exists_of_run_create hcreate
    have htree := (Parser.parse_within hparse).isFinite
    exact ⟨fun later => Record.read_serialize htree hnow later,
      fun later => Record.read_serialize_eq_ok_iff htree hnow later,
      fun data start hdata => EvaluateTreeRequest.read_document htree hdata start⟩
  · intro hlimit σ r w v id rule now record hnow hcreate hback
    obtain ⟨tree, hparse, rfl⟩ := exists_of_run_create hcreate
    have htree := Parser.parse_within hparse
    have hlimit : s.maxDepth < Source.nestingLimit := hmaxDepth ▸ hlimit
    have hdepth : tree.depth < Source.nestingLimit := by
      rw [Tree.depth_eq_height]
      exact Nat.lt_of_le_of_lt htree.height_le hlimit
    have hback : tree.reread? = some tree := hback
    refine ⟨fun later => ?_, fun data start hdata hnesting hreread => ?_⟩
    · exact (Record.read_serialize_eq_ok_iff htree.isFinite hnow later).2 ⟨hdepth, hback⟩
    · rw [EvaluateTreeRequest.read_document htree.isFinite hdata, if_pos ⟨hdepth, hnesting⟩, hback,
        hreread]
      rfl
  · -- a limit that is not below that of documents is reached by a rule that is too deep for them
    intro h
    refine Nat.lt_of_not_le fun hle => ?_
    have hdeep : Source.nestingLimit - 1 < s.maxDepth :=
      Nat.lt_of_lt_of_le (by decide) (hmaxDepth ▸ hle)
    obtain ⟨record, v, hcreate, hdepth, hfinite, hback, hnow⟩ :=
      run_create_repeated hdeep "r" ⟨0, 0⟩
    obtain ⟨hread, -⟩ := h _ _ _ _ _ _ _ record valid_epoch hcreate hback
    have hiff := Record.read_serialize_eq_ok_iff hfinite (hnow ▸ valid_epoch) ⟨0, 0⟩
    have hlt := (hiff.1 (hread _)).1
    rw [hdepth] at hlt
    exact absurd hlt (by decide)

/-- A rule with a number under the default settings, read again from its record and from a
request. -/
theorem created_reloads_default :
    Settings.ofEngine {} = .ok {} ∧
    ∃ record v, record = ⟨"r", "a = 2.5", .leaf ⟨"a", .equal, .ofWord "2.5"⟩, ⟨0, 0⟩⟩ ∧
      (create {} "r" ⟨0, 0⟩ "a = 2.5").run Repository.ofStore ⟨.empty, .empty⟩ =
        (.ok record, v) ∧
      Record.read ⟨1, 0⟩ record.serialize = .ok record ∧
      EvaluateTreeRequest.form.readSymbols ⟨.null, .null⟩
          (Text.decode (EvaluateTreeRequest.document record.tree
            (.object [("a", .number (.int 3))])).print.toUTF8) =
        .ok ⟨record.tree.toJson, .object [("a", .number (.int 3))]⟩ := by
  have hsettings : Settings.ofEngine {} = .ok {} := rfl
  have hparse : ({} : Settings).parser.parse "a = 2.5" =
      .ok (.leaf ⟨"a", .equal, .ofWord "2.5"⟩) := rfl
  have hcreate := (@run_create_eq_ok _ "r" ⟨.empty, .empty⟩ _ ⟨0, 0⟩ "a = 2.5" _).2
    ⟨_, hparse, rfl, rfl⟩
  have hback : (Tree.leaf ⟨"a", .equal, .ofWord "2.5"⟩).ReadsBack :=
    Tree.readsBack_leaf.2 (Literal.Short.readsBack (by decide +kernel))
  have hthree : (Number.int 3).InRange := ⟨by decide, by decide⟩
  have hdata : (Json.object [("a", .number (.int 3))]).InRange := by
    rw [Json.inRange_object, List.forall_mem_singleton]
    intro n hn
    cases List.mem_singleton.1 hn
    exact hthree
  have hreread : (Number.int 3).reread? = some (.int 3) := Number.readsBack_int hthree
  obtain ⟨-, hall⟩ := created_reloads_iff hsettings
  obtain ⟨hrecord, hrequest⟩ := hall.1 (by decide) _ _ _ _ _ _ _ _ valid_epoch hcreate hback
  exact ⟨hsettings, _, _, rfl, hcreate, hrecord ⟨1, 0⟩,
    hrequest _ ⟨.null, .null⟩ hdata (by decide)
      (by simp [Json.reread?, Json.rereadMembers?, hreread])⟩

/-- A rule under a limit that is not below that of documents: it is created, but its record cannot
be read from its text, and neither can a request that gives its tree. And a rule under the default
settings whose record is read from its text with another number than it was created with. -/
theorem created_not_reloaded :
    (∃ s record v, Settings.ofEngine { maxDepth := 127 } = .ok s ∧
      (create s "r" ⟨0, 0⟩ (Parsing.repeated 126)).run Repository.ofStore ⟨.empty, .empty⟩ =
        (.ok record, v) ∧
      Record.read ⟨1, 0⟩ record.serialize = .error (.failure .malformed) ∧
      EvaluateTreeRequest.form.readSymbols ⟨.null, .null⟩
          (Text.decode (EvaluateTreeRequest.document record.tree (.object [])).print.toUTF8) =
        .error (.failure .malformed)) ∧
    ∃ s record v, Settings.ofEngine {} = .ok s ∧
      (create s "r" ⟨0, 0⟩ "a = 6e46").run Repository.ofStore ⟨.empty, .empty⟩ =
        (.ok record, v) ∧
      ∃ tree, Record.read ⟨1, 0⟩ record.serialize = .ok { record with tree } ∧
        tree ≠ record.tree := by
  refine ⟨?_, ?_⟩
  · obtain ⟨record, v, hcreate, hdepth, hfinite, -, hnow⟩ :=
      run_create_repeated (s := { maxDepth := 127 }) (n := 126) (by decide) "r" ⟨0, 0⟩
    have htime : record.createdAt.Valid := hnow ▸ valid_epoch
    have hdata : (Json.object []).InRange := Json.inRange_object.2 (List.forall_mem_nil _)
    refine ⟨_, record, v, rfl, hcreate, ?_, ?_⟩
    · rw [Record.read_serialize hfinite htime, hdepth]
      rfl
    · rw [EvaluateTreeRequest.read_document hfinite hdata, hdepth]
      rfl
  · have hparse : ({} : Settings).parser.parse "a = 6e46" =
        .ok (.leaf ⟨"a", .equal, .ofWord "6e46"⟩) := rfl
    have hcreate := (@run_create_eq_ok _ "r" ⟨.empty, .empty⟩ _ ⟨0, 0⟩ "a = 6e46" _).2
      ⟨_, hparse, rfl, rfl⟩
    have hfinite : (Tree.leaf ⟨"a", .equal, .ofWord "6e46"⟩).isFinite := by decide +kernel
    have hback : ¬(Tree.leaf ⟨"a", .equal, .ofWord "6e46"⟩).ReadsBack := by decide +kernel
    have hread := @Record.read_serialize ⟨"r", "a = 6e46", _, ⟨0, 0⟩⟩ hfinite valid_epoch
      ⟨1, 0⟩
    obtain ⟨tree, htree⟩ : ∃ tree, (Tree.leaf ⟨"a", .equal, .ofWord "6e46"⟩).reread? = some tree :=
      Option.isSome_iff_exists.1 (by decide +kernel)
    have hdepth : (Tree.leaf ⟨"a", .equal, .ofWord "6e46"⟩).depth < Source.nestingLimit := by
      rw [Tree.depth_eq_height, Tree.height]
      decide
    rw [if_pos hdepth, htree] at hread
    refine ⟨_, _, _, rfl, hcreate, tree, hread, ?_⟩
    rintro rfl
    exact hback htree

end Service

end Rulebook
