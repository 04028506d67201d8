import Rulebook.Rule.Document

/-!
# Loading rules from documents

A document becomes a tree in two steps. `RawTree.load` reads the shape and leaves the operators as
they are written; `RawTree.resolve` then looks the operators up, a node before the nodes under it
and the left side before the right. A fault of shape is therefore found before any operator that
is not known. Before both, the depth along `left` and `right` is measured on the document itself,
whatever else the document holds, so that nothing deeper than the limit is read.

A node is written as an object with a member `type`, or as a list that holds the type first and
the other parts in order. Inside a node, where the type is one of a known pair, its number in that
pair may stand for its name.
-/

namespace Rulebook

/-- A tree whose operators are still words. -/
inductive RawTree where
  | operand (field sign : String) (value : Literal)
  | operator (word : String) (left right : RawTree)

namespace RawTree

/-- The two types of nodes. -/
inductive Tag where
  | operand
  | operator
deriving DecidableEq

/-- The type that a name writes. -/
def Tag.ofName (name : String) : Except Fault Tag :=
  if name = "operand" then .ok .operand
  else if name = "operator" then .ok .operator
  else .error (.unknownVariant name ["operand", "operator"])

/-- The type that a document writes. Inside another node (`nested`) a number may do so. -/
def Tag.ofJson (nested : Bool) : Json → Except Fault Tag
  | .text name => ofName name
  | .number (.int n) =>
    if nested ∧ 0 ≤ n then
      if n = 0 then .ok .operand
      else if n = 1 then .ok .operator
      else .error (.wrongValue (.number (.int n)) "variant index 0 <= i < 2")
    else .error (.wrongType (.number (.int n)) "variant identifier")
  | value => .error (.wrongType value "variant identifier")

/-- The type among the members of a node. -/
def Tag.find (nested : Bool) : Option Tag → List (String × Json) → Except Fault Tag
  | none, [] => .error (.missingField "type")
  | some tag, [] => .ok tag
  | found, (key, value) :: rest =>
    if key = "type" then
      match found with
      | some _ => .error (.duplicateField "type")
      | none => do find nested (some (← ofJson nested value)) rest
    else find nested found rest

/-- A member that must be there. -/
def required {α : Type} (name : String) : Option α → Except Fault α
  | some value => .ok value
  | none => .error (.missingField name)

/-- The first value of a member that may stand only once. -/
def once {α : Type} (name : String) (seen : Option α) (value : Except Fault α) :
    Except Fault (Option α) :=
  match seen with
  | some _ => .error (.duplicateField name)
  | none => value.map some

/-- The parts of an operand among its members, in the order of the document. -/
def operandMembers (field sign : Option String) (value : Option Literal) :
    List (String × Json) → Except Fault RawTree
  | [] => do
    let field ← required "attribute" field
    let sign ← required "operator" sign
    let value ← required "value" value
    return .operand field sign value
  | (key, found) :: rest =>
    if key = "attribute" then do
      operandMembers (← once key field found.asText) sign value rest
    else if key = "operator" then do
      operandMembers field (← once key sign found.asText) value rest
    else if key = "value" then do
      operandMembers field sign (← once key value (Literal.ofJson found)) rest
    else operandMembers field sign value rest

/-- What a list for an operand should hold. -/
def operandParts : String := "struct variant RawNode::Operand with 3 elements"

/-- What a list for an operator should hold. -/
def operatorParts : String := "struct variant RawNode::Operator with 3 elements"

/-- The end of a list after the three parts of a node. -/
def noMore (extra : List Json) : Except Fault Unit :=
  if extra.isEmpty then .ok ()
  else .error (.wrongLength (3 + extra.length) "3 elements in sequence")

/-- The parts of an operand as the items of a list. -/
def operandItems : List Json → Except Fault RawTree
  | [] => .error (.wrongLength 0 operandParts)
  | field :: rest => do
    let field ← field.asText
    match rest with
    | [] => .error (.wrongLength 1 operandParts)
    | sign :: rest =>
      let sign ← sign.asText
      match rest with
      | [] => .error (.wrongLength 2 operandParts)
      | value :: extra =>
        let value ← Literal.ofJson value
        noMore extra
        return .operand field sign value

mutual

/-- Reads the shape of a node. -/
def load (nested : Bool) : Json → Except Fault RawTree
  | .object members => do
    match ← Tag.find nested none members with
    | .operand => operandMembers none none none members
    | .operator => operatorMembers none none none members
  | .list [] => .error (.missingField "type")
  | .list (tag :: items) => do
    match ← Tag.ofJson nested tag with
    | .operand => operandItems items
    | .operator => operatorItems items
  | value => .error (.wrongType value "internally tagged enum RawNode")

/-- The parts of an operator among its members, in the order of the document. -/
def operatorMembers (word : Option String) (left right : Option RawTree) :
    List (String × Json) → Except Fault RawTree
  | [] => do
    let word ← required "operator" word
    let left ← required "left" left
    let right ← required "right" right
    return .operator word left right
  | (key, found) :: rest =>
    if key = "operator" then do
      operatorMembers (← once key word found.asText) left right rest
    else if key = "left" then do
      operatorMembers word (← once key left (load true found)) right rest
    else if key = "right" then do
      operatorMembers word left (← once key right (load true found)) rest
    else operatorMembers word left right rest

/-- The parts of an operator as the items of a list. -/
def operatorItems : List Json → Except Fault RawTree
  | [] => .error (.wrongLength 0 operatorParts)
  | word :: rest => do
    let word ← word.asText
    operatorSides word rest

/-- The two sides of an operator as the items of a list, and nothing after them. -/
def operatorSides (word : String) : List Json → Except Fault RawTree
  | [] => .error (.wrongLength 1 operatorParts)
  | left :: rest => do
    let left ← load true left
    operatorRight word left rest

/-- The right side of an operator, and nothing after it. -/
def operatorRight (word : String) (left : RawTree) : List Json → Except Fault RawTree
  | [] => .error (.wrongLength 2 operatorParts)
  | right :: extra => do
    let right ← load true right
    noMore extra
    return .operator word left right

end

/-- Looks up the operators, a node before its left side and that before its right. -/
def resolve : RawTree → Except Error Tree
  | .operand field sign value => do
    let comparison ← Comparison.resolve sign
    return .leaf ⟨field, comparison, value⟩
  | .operator word left right => do
    let connective ← Connective.resolve word
    let left ← left.resolve
    let right ← right.resolve
    return .join connective left right

end RawTree

namespace Json

mutual

/-- The depth of a document along the members `left` and `right` of objects. -/
def sideDepth : Json → Nat
  | .object members => 1 + sideDepths members
  | _ => 1

/-- The largest depth among the members `left` and `right`. -/
def sideDepths : List (String × Json) → Nat
  | [] => 0
  | (key, value) :: rest =>
    max (if key = "left" ∨ key = "right" then value.sideDepth else 0) (sideDepths rest)

end

end Json

namespace Tree

/-- The greatest depth of a tree where nobody asks for another. -/
def defaultMaxDepth : Nat := 100

/-- The tree of a document that is not deeper than the limit. -/
def load (limit : Nat) (value : Json) : Except Error Tree :=
  let depth := value.sideDepth
  if limit < depth then .error (.depthExceeded depth limit)
  else match RawTree.load false value with
    | .error fault => .error (.badDocument fault)
    | .ok raw => raw.resolve

end Tree

end Rulebook
