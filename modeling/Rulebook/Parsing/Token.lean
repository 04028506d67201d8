import Rulebook.Rule.Operator
import Rulebook.Text.Blank

/-!
# Tokens

Where parentheses group, each word of a rule gives up the opening parentheses at its head and the
closing ones at its end; what is left between them is a connective or a word.
-/

namespace Rulebook.Parsing

/-- A piece of a rule in which parentheses group. -/
inductive Token where
  | opening
  | closing
  | connective (connective : Connective)
  | word (text : String)
deriving DecidableEq

namespace Token

/-- The characters of a token. -/
def display : Token → String
  | .opening => "("
  | .closing => ")"
  | .connective c => c.word
  | .word text => text

/-- The token of what stands between the parentheses of a word, if anything does. -/
def ofCore (core : List Char) : List Token :=
  if core.isEmpty then []
  else match Connective.ofWord? (String.ofList core) with
    | some c => [.connective c]
    | none => [.word (String.ofList core)]

/-- The characters without the closing parentheses at their end. -/
def dropClosing (cs : List Char) : List Char :=
  (cs.reverse.dropWhile (· == ')')).reverse

/-- The tokens of one word. -/
def ofWord (word : String) : List Token :=
  let trimmed := word.toList.dropWhile (· == '(')
  let core := dropClosing trimmed
  List.replicate (word.toList.length - trimmed.length) .opening ++ ofCore core ++
    List.replicate (trimmed.length - core.length) .closing

/-- The tokens of a rule. -/
def ofRule (rule : String) : List Token := (Text.words rule).flatMap ofWord

/-- The characters of tokens with blanks between them. -/
def displayAll (tokens : List Token) : String := " ".intercalate (tokens.map display)

end Token

/-- How deep parentheses stand inside each other at the deepest place; a closing one that nothing
opened counts for nothing. `open` is how many are open before the tokens. -/
def nesting (opened : Nat) : List Token → Nat
  | [] => opened
  | .opening :: rest => max opened (nesting (opened + 1) rest)
  | .closing :: rest => max opened (nesting (opened - 1) rest)
  | _ :: rest => nesting opened rest

/-- The number of connectives among tokens. -/
def joints (tokens : List Token) : Nat :=
  (tokens.filter fun t => match t with
    | .connective _ => true
    | _ => false).length

/-- A bound on the depth of the tree that tokens write, and on how many parentheses are open at
once: connectives and one more, or the nesting if that is larger. -/
def depthBound (tokens : List Token) : Nat := max (joints tokens + 1) (nesting 0 tokens)

end Rulebook.Parsing
