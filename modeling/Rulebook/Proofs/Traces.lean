import Mathlib.Data.List.Nodup
import Rulebook.Proofs.Meaning
import Rulebook.Proofs.Measures

/-!
# Traces

A trace is meant to be an account of an evaluation that can be read line by line. What it is an
account of is said here without traces: the places of a tree, each with the subtree that stands
there, in the order in which evaluation is done with them (`Tree.postorder`), and for each of them
what evaluating that subtree gives when it is evaluated by itself (`Tree.report`). A trace is the
list of these reports, no more and no less.

The lines are texts, and a reader has nothing but the texts. All lines are of one form
(`Line.text`): a path, which holds no colon, then what the line is about, then a verdict, which
holds no blank. So the path is what stands before the first colon and the verdict what stands
behind the last blank, whatever attributes and literals the rule has between them.
-/

namespace Rulebook

namespace Tree

/-! ## Places -/

/-- The subtree at a place. A place is the sides that are taken on the way down to it. -/
def subtree? : List Side → Tree → Option Tree
  | [], tree => some tree
  | _ :: _, .leaf _ => none
  | .left :: place, .join _ left _ => left.subtree? place
  | .right :: place, .join _ _ right => right.subtree? place

/-- The places of a tree with their subtrees: those on the left side of a join, those on its right
side, and then the join. -/
def postorder : Tree → List (List Side × Tree)
  | .leaf c => [([], .leaf c)]
  | .join c left right =>
    left.postorder.map (Prod.map (.left :: ·) id) ++
      right.postorder.map (Prod.map (.right :: ·) id) ++ [([], .join c left right)]

theorem length_postorder (tree : Tree) :
    tree.postorder.length = 2 * tree.conditions.length - 1 := by
  induction tree with
  | leaf c => rfl
  | join c left right ihl ihr =>
    have hl := left.length_conditions
    have hr := right.length_conditions
    rw [postorder, conditions, List.length_append, List.length_append, List.length_map,
      List.length_map, List.length_append, ihl, ihr, List.length_singleton]
    omega

/-- The places that are listed are those where there is a subtree, each with its own. -/
theorem mem_postorder {tree node : Tree} {place : List Side} :
    (place, node) ∈ tree.postorder ↔ tree.subtree? place = some node := by
  induction tree generalizing place with
  | leaf c =>
    cases place with
    | nil => simp [postorder, subtree?, eq_comm]
    | cons side place => simp [postorder, subtree?]
  | join c left right ihl ihr =>
    cases place with
    | nil => simp [postorder, subtree?, eq_comm]
    | cons side place =>
      cases side with
      | left => simp [postorder, subtree?, ihl]
      | right => simp [postorder, subtree?, ihr]

/-- No place is listed twice. -/
theorem nodup_places (tree : Tree) : (tree.postorder.map Prod.fst).Nodup := by
  induction tree with
  | leaf c => exact List.nodup_singleton _
  | join c left right ihl ihr =>
    have hl : (left.postorder.map (Prod.map (Side.left :: ·) id)).map Prod.fst =
        (left.postorder.map Prod.fst).map (Side.left :: ·) := by
      rw [List.map_map, List.map_map]
      rfl
    have hr : (right.postorder.map (Prod.map (Side.right :: ·) id)).map Prod.fst =
        (right.postorder.map Prod.fst).map (Side.right :: ·) := by
      rw [List.map_map, List.map_map]
      rfl
    rw [postorder, List.map_append, List.map_append, hl, hr]
    refine List.nodup_append.2 ⟨List.nodup_append.2 ⟨?_, ?_, ?_⟩, List.nodup_singleton _, ?_⟩
    · exact ihl.map List.cons_injective
    · exact ihr.map List.cons_injective
    · intro p hp q hq heq
      obtain ⟨p, -, rfl⟩ := List.mem_map.1 hp
      obtain ⟨q, -, rfl⟩ := List.mem_map.1 hq
      cases heq
    · intro p hp q hq heq
      obtain rfl := List.mem_singleton.1 hq
      obtain hp | hp := List.mem_append.1 hp
      · obtain ⟨p, -, rfl⟩ := List.mem_map.1 hp
        cases heq
      · obtain ⟨p, -, rfl⟩ := List.mem_map.1 hp
        cases heq

/-! ## Paths -/

/-- A step down as paths write it. -/
def stepText : Side → String
  | .left => ".left"
  | .right => ".right"

/-- The path of a place that is counted from the node at the given path. -/
def pathFrom (path : String) : List Side → String
  | [] => path
  | side :: place => pathFrom (path ++ stepText side) place

/-- The path of a place. -/
def pathOf (place : List Side) : String := pathFrom "root" place

theorem toList_pathFrom (path : String) (place : List Side) :
    (pathFrom path place).toList =
      path.toList ++ place.flatMap fun side => (stepText side).toList := by
  induction place generalizing path with
  | nil => rw [pathFrom, List.flatMap_nil, List.append_nil]
  | cons side place ih =>
    rw [pathFrom, ih, String.toList_append, List.append_assoc, List.flatMap_cons]

/-- The steps can be told apart by their second letter. -/
theorem flatMap_stepText_injective :
    Function.Injective fun place : List Side =>
      place.flatMap fun side => (stepText side).toList := by
  intro p q h
  induction p generalizing q with
  | nil =>
    cases q with
    | nil => rfl
    | cons side q => cases side <;> simp [stepText] at h
  | cons side p ih =>
    cases q with
    | nil => cases side <;> simp [stepText] at h
    | cons other q =>
      cases side <;> cases other <;> simp [stepText] at h
      · rw [ih h]
      · rw [ih h]

/-- Different places have different paths. -/
theorem pathOf_injective : Function.Injective pathOf := by
  intro p q h
  have hchars := congrArg String.toList h
  rw [pathOf, pathOf, toList_pathFrom, toList_pathFrom] at hchars
  exact flatMap_stepText_injective (List.append_cancel_left hchars)

/-- A step writes no colon. -/
theorem colon_notMem_step {path : String} (h : ':' ∉ path.toList) (side : Side) :
    ':' ∉ (path ++ stepText side).toList := by
  rw [String.toList_append, List.mem_append, not_or]
  refine ⟨h, ?_⟩
  cases side <;> decide

theorem colon_notMem_pathFrom {path : String} (h : ':' ∉ path.toList) (place : List Side) :
    ':' ∉ (pathFrom path place).toList := by
  induction place generalizing path with
  | nil => exact h
  | cons side place ih => exact ih (colon_notMem_step h side)

theorem colon_notMem_pathOf (place : List Side) : ':' ∉ (pathOf place).toList :=
  colon_notMem_pathFrom (by decide) place

end Tree

/-! ## Lines -/

namespace Line

/-- The form of all lines. -/
def text (path account verdict : String) : String := path ++ ": " ++ account ++ " => " ++ verdict

/-- The path of a line: what stands before the first colon. -/
def path (line : String) : String := String.ofList (line.toList.takeWhile (· != ':'))

/-- The verdict of a line: what stands behind the last blank. -/
def verdict (line : String) : String :=
  String.ofList (line.toList.reverse.takeWhile (· != ' ')).reverse

/-- What a line is about: all that stands between its path and its verdict. -/
def account (line : String) : String :=
  let body := (line.toList.dropWhile (· != ':')).drop 2
  String.ofList ((body.reverse.dropWhile (· != ' ')).drop 4).reverse

/-- The truth that a verdict says. -/
def value? (line : String) : Option Bool :=
  if verdict line = "MATCHED" ∨ verdict line = "true" then some true
  else if verdict line = "NOT_MATCHED" ∨ verdict line = "false" then some false
  else none

/-- Holds for the lines of leaves that are marked as holding. -/
def isMarked (line : String) : Bool := verdict line == "MATCHED"

variable {p account word : String}

theorem toList_text (p account word : String) :
    (text p account word).toList =
      p.toList ++ ':' :: ' ' :: (account.toList ++ ' ' :: '=' :: '>' :: ' ' :: word.toList) := by
  simp [text]

theorem takeWhile_until {stop : Char} {front : List Char} (h : stop ∉ front) (back : List Char) :
    (front ++ stop :: back).takeWhile (· != stop) = front := by
  rw [List.takeWhile_append_of_pos, List.takeWhile_cons_of_neg, List.append_nil]
  · simp
  · intro c hc
    exact bne_iff_ne.2 fun heq => h (heq ▸ hc)

theorem dropWhile_until {stop : Char} {front : List Char} (h : stop ∉ front) (back : List Char) :
    (front ++ stop :: back).dropWhile (· != stop) = stop :: back := by
  rw [List.dropWhile_append_of_pos, List.dropWhile_cons_of_neg]
  · simp
  · intro c hc
    exact bne_iff_ne.2 fun heq => h (heq ▸ hc)

theorem path_text (hp : ':' ∉ p.toList) : path (text p account word) = p := by
  rw [path, toList_text, takeWhile_until hp, String.ofList_toList]

theorem verdict_text (hword : ' ' ∉ word.toList) : verdict (text p account word) = word := by
  have hreverse : (text p account word).toList.reverse =
      word.toList.reverse ++ ' ' :: ('>' :: '=' :: ' ' :: (account.toList.reverse ++
        ' ' :: ':' :: p.toList.reverse)) := by
    rw [toList_text]
    simp
  rw [verdict, hreverse, takeWhile_until (mt List.mem_reverse.1 hword), List.reverse_reverse,
    String.ofList_toList]

theorem account_text (hp : ':' ∉ p.toList) (hword : ' ' ∉ word.toList) :
    Line.account (text p account word) = account := by
  have hbody : (account.toList ++ ' ' :: '=' :: '>' :: ' ' :: word.toList).reverse =
      word.toList.reverse ++ ' ' :: ('>' :: '=' :: ' ' :: account.toList.reverse) := by
    simp
  simp only [Line.account, toList_text, dropWhile_until hp, List.drop_succ_cons, List.drop_zero,
    hbody, dropWhile_until (mt List.mem_reverse.1 hword), List.reverse_reverse,
    String.ofList_toList]

end Line

namespace Tree

variable {record : Json} {tree node : Tree} {path : String}

/-- The line of a node at a path, by evaluating the node by itself and, for a join, its two sides by
themselves too. -/
def report (record : Json) (path : String) : Tree → Except Error String
  | .leaf c => do
    let own ← (leaf c).evaluate false record
    return Line.text path c.display (if own.matched then "MATCHED" else "NOT_MATCHED")
  | .join c left right => do
    let l ← left.evaluate false record
    let r ← right.evaluate false record
    let own ← (join c left right).evaluate false record
    return Line.text path (truth l.matched ++ " " ++ c.word ++ " " ++ truth r.matched)
      (truth own.matched)

/-- What the line of a node is about: the condition of a leaf, or what is joined. -/
def account (record : Json) : Tree → String
  | .leaf c => c.display
  | .join c left right =>
    truth (left.meaning record) ++ " " ++ c.word ++ " " ++ truth (right.meaning record)

/-- The word for the truth of a node. -/
def verdict (record : Json) : Tree → String
  | .leaf c => if c.holdsOf record then "MATCHED" else "NOT_MATCHED"
  | .join c left right => truth ((join c left right).meaning record)

/-- The line of a node, by what it means. -/
def lineAt (record : Json) (path : String) (node : Tree) : String :=
  Line.text path (node.account record) (node.verdict record)

theorem blank_notMem_verdict (record : Json) (node : Tree) :
    ' ' ∉ (node.verdict record).toList := by
  cases node with
  | leaf c =>
    rw [verdict]
    cases c.holdsOf record <;> decide
  | join c left right =>
    rw [verdict]
    cases (join c left right).meaning record <;> decide

theorem path_lineAt (hpath : ':' ∉ path.toList) (node : Tree) :
    Line.path (node.lineAt record path) = path := Line.path_text hpath

theorem verdict_lineAt (node : Tree) :
    Line.verdict (node.lineAt record path) = node.verdict record :=
  Line.verdict_text (blank_notMem_verdict record node)

theorem account_lineAt (hpath : ':' ∉ path.toList) (node : Tree) :
    Line.account (node.lineAt record path) = node.account record :=
  Line.account_text hpath (blank_notMem_verdict record node)

/-- The verdict of a line is the truth of its node. -/
theorem value?_lineAt (node : Tree) :
    Line.value? (node.lineAt record path) = some (node.meaning record) := by
  rw [Line.value?, verdict_lineAt]
  cases node with
  | leaf c =>
    rw [verdict, meaning]
    cases c.holdsOf record <;> rfl
  | join c left right =>
    rw [verdict]
    cases (join c left right).meaning record <;> rfl

/-! ## The lines of a trace -/

theorem lines_leaf (c : Condition) :
    (leaf c).lines record path = [(leaf c).lineAt record path] := rfl

/-- The lines of the sides, each a step further down, and then the line of the join. -/
theorem lines_join (c : Connective) (left right : Tree) :
    (join c left right).lines record path =
      left.lines record (path ++ stepText .left) ++ right.lines record (path ++ stepText .right) ++
        [(join c left right).lineAt record path] := by
  simp only [lines, stepText, lineAt, Line.text, account, verdict, joinLine, String.append_assoc]

/-- The lines of a tree are those of its places in their order. -/
theorem lines_eq_map (record : Json) (path : String) (tree : Tree) :
    tree.lines record path =
      tree.postorder.map fun spot => spot.2.lineAt record (pathFrom path spot.1) := by
  induction tree generalizing path with
  | leaf c => rfl
  | join c left right ihl ihr =>
    rw [lines_join, ihl, ihr, postorder, List.map_append, List.map_append, List.map_map,
      List.map_map]
    rfl

/-- A tree that misses no attribute has no subtree that misses one. -/
theorem firstMissing?_subtree {place : List Side} (hnode : tree.subtree? place = some node)
    (hnone : tree.firstMissing? record = none) : node.firstMissing? record = none := by
  induction place generalizing tree with
  | nil =>
    cases hnode
    exact hnone
  | cons side place ih =>
    cases tree with
    | leaf c => cases hnode
    | join c left right =>
      rw [firstMissing?_join, Option.or_eq_none_iff] at hnone
      cases side with
      | left => exact ih hnode hnone.1
      | right => exact ih hnode hnone.2

/-- A node that misses no attribute is reported as it means. -/
theorem report_eq (path : String) (hnone : node.firstMissing? record = none) :
    node.report record path = .ok (node.lineAt record path) := by
  cases node with
  | leaf c =>
    rw [report, evaluate_eq, hnone]
    rfl
  | join c left right =>
    have hsides := hnone
    rw [firstMissing?_join, Option.or_eq_none_iff] at hsides
    rw [report, evaluate_eq, evaluate_eq, evaluate_eq, hnone, hsides.1, hsides.2]
    rfl

/-- The last line is about the whole tree. -/
theorem getLast?_lines (record : Json) (path : String) (tree : Tree) :
    (tree.lines record path).getLast? = some (tree.lineAt record path) := by
  cases tree with
  | leaf c => rfl
  | join c left right => rw [lines_join, List.getLast?_concat]

theorem isMarked_leaf (c : Condition) :
    Line.isMarked ((leaf c).lineAt record path) = c.holdsOf record := by
  rw [Line.isMarked, verdict_lineAt, verdict]
  cases c.holdsOf record <;> rfl

/-- No join is marked: it is true or false and not a condition that holds. -/
theorem isMarked_join (c : Connective) (left right : Tree) :
    Line.isMarked ((join c left right).lineAt record path) = false := by
  rw [Line.isMarked, verdict_lineAt, verdict]
  cases (join c left right).meaning record <;> rfl

/-- The marked lines are about the conditions that hold, in their order. -/
theorem marked_lines (hpath : ':' ∉ path.toList) (tree : Tree) :
    ((tree.lines record path).filter Line.isMarked).map Line.account =
      (tree.holding record).map Condition.display := by
  induction tree generalizing path with
  | leaf c =>
    rw [lines_leaf, holding, conditions, List.filter_singleton, List.filter_singleton,
      isMarked_leaf]
    cases c.holdsOf record with
    | false => rfl
    | true => exact congrArg (fun about => [about]) (account_lineAt hpath (leaf c))
  | join c left right ihl ihr =>
    have hown : [(join c left right).lineAt record path].filter Line.isMarked = [] := by
      rw [List.filter_singleton, isMarked_join]
      rfl
    rw [lines_join, List.filter_append, List.filter_append, hown, List.append_nil, List.map_append,
      ihl (colon_notMem_step hpath .left), ihr (colon_notMem_step hpath .right), holding_join,
      List.map_append]

/-- **A trace is the account of its evaluation.** If a rule is evaluated with a trace, the trace has
a line for each place of the rule and no other, in postorder. Each line is the report of its node:
the path of the place, then the truth that evaluating the node by itself gives, and for a join the
truths of its two sides by themselves. From the texts alone one can read the paths, no two of which
are the same, the truths, the last of which is the outcome, and in the marked lines the conditions
that hold. -/
theorem trace_reports_nodes {tree : Tree} {o : Outcome}
    (h : tree.evaluate true record = .ok o) :
    o.trace.length = 2 * tree.leafCount - 1 ∧
    (∀ place node, (place, node) ∈ tree.postorder ↔ tree.subtree? place = some node) ∧
    (tree.postorder.map Prod.fst).Nodup ∧
    (tree.postorder.map fun spot => spot.2.report record (pathOf spot.1)) = o.trace.map .ok ∧
    o.trace.map Line.path = tree.postorder.map (fun spot => pathOf spot.1) ∧
    (o.trace.map Line.path).Nodup ∧
    o.trace.map Line.value? = (tree.postorder.map fun spot =>
      (spot.2.evaluate false record).toOption.map (·.matched)) ∧
    o.trace.getLast?.bind Line.value? = some o.matched ∧
    o.conditions = (o.trace.filter Line.isMarked).map Line.account := by
  obtain ⟨hnone, rfl⟩ := evaluate_eq_ok_iff.1 h
  have htrace : (tree.outcome true record "root").trace =
      tree.postorder.map fun spot => spot.2.lineAt record (pathOf spot.1) :=
    lines_eq_map record "root" tree
  have hpaths : (tree.outcome true record "root").trace.map Line.path =
      tree.postorder.map (fun spot => pathOf spot.1) := by
    rw [htrace, List.map_map]
    exact List.map_congr_left fun spot _ => path_lineAt (colon_notMem_pathOf spot.1) spot.2
  have hnodes : ∀ spot ∈ tree.postorder, spot.2.firstMissing? record = none :=
    fun spot hspot => firstMissing?_subtree (mem_postorder.1 hspot) hnone
  refine ⟨?_, fun place node => mem_postorder, tree.nodup_places, ?_, hpaths, ?_, ?_, ?_, ?_⟩
  · rw [htrace, List.length_map, length_postorder, leafCount_eq_length]
  · rw [htrace, List.map_map]
    exact List.map_congr_left fun spot hspot => report_eq _ (hnodes spot hspot)
  · have hcompose : tree.postorder.map (fun spot => pathOf spot.1) =
        (tree.postorder.map Prod.fst).map pathOf := by rw [List.map_map]; rfl
    rw [hpaths, hcompose]
    exact tree.nodup_places.map pathOf_injective
  · rw [htrace, List.map_map]
    refine List.map_congr_left fun spot hspot => ?_
    rw [Function.comp_apply, value?_lineAt, evaluate_eq, hnodes spot hspot]
    rfl
  · have hlast := getLast?_lines record "root" tree
    show (tree.lines record "root").getLast?.bind Line.value? = some (tree.meaning record)
    rw [hlast, Option.bind_some, value?_lineAt]
  · exact (marked_lines (by decide) tree).symm

/-- A condition whose text looks like the end of a marked line, and does not hold, beside one that
holds, under a join that is false. -/
theorem trace_reports_nodes_lookalike :
    (join .and (leaf ⟨"a", .equal, .text "x => MATCHED"⟩)
      (leaf ⟨"b: c", .equal, .text "y"⟩)).evaluate
        true (.object [("a", .text "x"), ("b: c", .text "y")]) = .ok
      ⟨false, ["b: c = 'y'"],
        ["root.left: a = 'x => MATCHED' => NOT_MATCHED", "root.right: b: c = 'y' => MATCHED",
          "root: false AND true => false"]⟩ ∧
    ["b: c = 'y'"] =
      (["root.left: a = 'x => MATCHED' => NOT_MATCHED", "root.right: b: c = 'y' => MATCHED",
        "root: false AND true => false"].filter Line.isMarked).map Line.account := by
  have hevaluate :
      (join .and (leaf ⟨"a", .equal, .text "x => MATCHED"⟩)
        (leaf ⟨"b: c", .equal, .text "y"⟩)).evaluate true
          (.object [("a", .text "x"), ("b: c", .text "y")]) = .ok
        ⟨false, ["b: c = 'y'"],
          ["root.left: a = 'x => MATCHED' => NOT_MATCHED", "root.right: b: c = 'y' => MATCHED",
            "root: false AND true => false"]⟩ := by rfl
  obtain ⟨-, -, -, -, -, -, -, -, hmarked⟩ := trace_reports_nodes hevaluate
  exact ⟨hevaluate, hmarked⟩

end Tree

end Rulebook
