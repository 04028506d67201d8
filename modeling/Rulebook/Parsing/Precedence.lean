import Rulebook.Parsing.Clause
import Rulebook.Parsing.Token

/-!
# Reading with precedence

In this way of reading `AND` binds tighter than `OR`, both join from the left, and parentheses
group. A state holds what has been read at the present level of parentheses, the same for every
level around it, and what is expected next; each token moves the state one step.
-/

namespace Rulebook.Parsing

/-- What has been read at one level of parentheses: a disjunction that waits for its right side
and, inside that side, a conjunction that waits for its own. -/
structure Level where
  disjunction : Option Tree
  conjunction : Option Tree
deriving DecidableEq

namespace Level

/-- A level of which nothing has been read. -/
def start : Level := ⟨none, none⟩

/-- A tree, under a connective to the right of another if there is one. -/
def under (c : Connective) : Option Tree → Tree → Tree
  | some left, right => .join c left right
  | none, right => right

/-- The level after a tree and `AND`. -/
def and (level : Level) (tree : Tree) : Level :=
  { level with conjunction := some (under .and level.conjunction tree) }

/-- The tree of a level whose last part has been read. -/
def close (level : Level) (tree : Tree) : Tree :=
  under .or level.disjunction (under .and level.conjunction tree)

/-- The level after a tree and `OR`. -/
def or (level : Level) (tree : Tree) : Level := ⟨some (level.close tree), none⟩

end Level

/-- What is expected next. -/
inductive Phase where
  /-- a part of the rule, right of the given connective if there is one -/
  | part (after : Option Connective)
  /-- more words of a clause; those read so far, last one first -/
  | clause (words : List String)
  /-- a connective or the end of the level; the part that was read -/
  | joint (tree : Tree)
deriving DecidableEq

/-- A state of the reader. -/
structure State where
  /-- the levels around the present one, the innermost first -/
  outer : List Level
  /-- how many parentheses are open -/
  depth : Nat
  /-- the present level -/
  level : Level
  phase : Phase
deriving DecidableEq

namespace State

/-- The state before the first token. -/
def start : State := ⟨[], 0, .start, .part none⟩

/-- The failure of a level that is not closed. -/
def unclosed : Error := .unbalancedParentheses "缺少右括号"

/-- The failure of a closing parenthesis that nothing opened. -/
def unopened : Error := .unbalancedParentheses "多余的右括号"

/-- The step where a part is expected. -/
def stepPart (s : State) (after : Option Connective) : Token → Except Error State
  | .opening => .ok ⟨s.level :: s.outer, s.depth + 1, .start, .part none⟩
  | .word text => .ok { s with phase := .clause [text] }
  | .connective c =>
    match after with
    | some a => .error (.danglingConnective a.word .right)
    | none => .error (.danglingConnective c.word .left)
  | .closing =>
    match after with
    | some a => .error (.danglingConnective a.word .right)
    | none => .error (.malformedClause "()")

/-- The step after a part. The tokens that follow are needed only for a message. -/
def stepJoint (s : State) (tree : Tree) (rest : List Token) : Token → Except Error State
  | .connective .and => .ok { s with level := s.level.and tree, phase := .part (some .and) }
  | .connective .or => .ok { s with level := s.level.or tree, phase := .part (some .or) }
  | .closing =>
    match s.outer with
    | [] => .error unopened
    | level :: outer => .ok ⟨outer, s.depth - 1, level, .joint (s.level.close tree)⟩
  | token =>
    match s.outer with
    | [] => .error (.malformedClause (Token.displayAll (token :: rest)))
    | _ :: _ => .error unclosed

/-- One step. A clause ends at the first token that is no word, which is then looked at as the
token after a part. -/
def step (s : State) (rest : List Token) (token : Token) : Except Error State :=
  match s.phase, token with
  | .part after, token => s.stepPart after token
  | .clause words, .word text => .ok { s with phase := .clause (text :: words) }
  | .clause words, token => do
    let tree ← Parsing.clause words.reverse
    s.stepJoint tree rest token
  | .joint tree, token => s.stepJoint tree rest token

/-- The tree of a level at the end of the tokens, which must not be inside parentheses. -/
def finishLevel (s : State) (tree : Tree) : Except Error Tree :=
  match s.outer with
  | [] => .ok (s.level.close tree)
  | _ :: _ => .error unclosed

/-- The result at the end of the tokens. -/
def finish (s : State) : Except Error Tree :=
  match s.phase with
  | .part (some after) => .error (.danglingConnective after.word .right)
  | .part none => .error (if 0 < s.depth then unclosed else .emptyRule)
  | .clause words => do s.finishLevel (← Parsing.clause words.reverse)
  | .joint tree => s.finishLevel tree

/-- Steps through tokens. -/
def run (s : State) : List Token → Except Error Tree
  | [] => s.finish
  | token :: rest => do (← s.step rest token).run rest

end State

/-- The tree of tokens that are read with precedence. -/
def precedence (tokens : List Token) : Except Error Tree := State.start.run tokens

end Rulebook.Parsing
