import Rulebook.Parsing.FirstMatch
import Rulebook.Parsing.Precedence
import Rulebook.Rule.Loading

/-!
# Parsers

A parser is a way of reading and a greatest depth. A bound on the depth of the tree is taken from
the words or tokens alone, before anything is read.
-/

namespace Rulebook

/-- A way of reading rules. -/
inductive Mode where
  /-- up to the first connective; parentheses mean nothing -/
  | firstMatch
  /-- with precedence and parentheses -/
  | precedence
deriving DecidableEq

namespace Mode

/-- The name of a way of reading in settings. -/
def name : Mode → String
  | .firstMatch => "first_match"
  | .precedence => "precedence"

/-- The way of reading that a setting names. -/
def ofName (name : String) : Except Error Mode :=
  if name = "first_match" then .ok .firstMatch
  else if name = "precedence" then .ok .precedence
  else .error (.invalidInput ("未知的解析模式: " ++ name))

end Mode

/-- A way of reading with a limit. -/
structure Parser where
  mode : Mode := .firstMatch
  maxDepth : Nat := Tree.defaultMaxDepth
deriving DecidableEq

namespace Parser

/-- Refuses a depth above the limit. -/
def checkDepth (p : Parser) (depth : Nat) : Except Error Unit :=
  if p.maxDepth < depth then .error (.depthExceeded depth p.maxDepth) else .ok ()

/-- The tree of a rule. -/
def parse (p : Parser) (rule : String) : Except Error Tree :=
  if Text.allBlank rule then .error .emptyRule
  else match p.mode with
    | .firstMatch => do
      let words := Text.words rule
      p.checkDepth (Parsing.connectives words + 1)
      Parsing.firstMatch words
    | .precedence => do
      let tokens := Parsing.Token.ofRule rule
      p.checkDepth (Parsing.depthBound tokens)
      Parsing.precedence tokens

end Parser

end Rulebook
