import ProtoWire.Source.Statement

/-! # Attributes

Declarations and their parts carry attributes. An attribute is a keyword alone, a keyword with a
value, or a keyword with a list of items; an item is a literal, a name, a name with a value or a
name with a list of its own. Attributes with other keywords belong to other readers, and what a
list holds is read only by those that ask for it.
-/

namespace ProtoWire.Source

/-- What follows the keyword of an attribute. -/
inductive AttributeBody where
  | word
  | value (form : ExpressionForm)
  | list (trees : List Tree)
deriving Repr

/-- An attribute. -/
structure Attribute where
  keyword : Path
  body : AttributeBody
deriving Repr

/-- An item in the list of an attribute. -/
inductive MetaItem where
  /-- A value without a name. -/
  | literal
  | word (name : String)
  | value (name : String) (form : ExpressionForm)
  /-- A list of its own, and what is wrong with it if it is no list of items. -/
  | list (name : String) (error : Option ParseError)
deriving DecidableEq, Repr

namespace Grammar

open Source.Parser

/-- Reads a value: a literal that is all there is, or an expression. -/
def value (grammar : Grammar) : Parser ExpressionForm := do
  let trees ← ahead
  let whole := match literalAt? trees with
    | some (literal, count) => if (trees.drop count).isEmpty then some literal else none
    | none => none
  match whole with
  | some literal =>
      take trees.length
      return .literal literal
  | none =>
      if atSymbol "#" trees && atGroup .square (trees.drop 1) then
        fail (.forbidden "unexpected attribute inside of attribute")
      grammar.expression true

/-- Reads an attribute, or an item with a name. -/
def anyAttribute (grammar : Grammar) : Parser Attribute := do
  let keyword ← if atWord "unsafe" (← ahead) then do
      take 1
      pure { segments := [⟨"unsafe", .none⟩] }
    else plainPath
  let trees ← ahead
  match trees with
  | .group _ inside :: _ =>
      take 1
      return ⟨keyword, .list inside⟩
  | _ =>
      if atSymbol "=" trees && !atSymbol "==" trees && !atSymbol "=>" trees then
        symbol "="
        return ⟨keyword, .value (← grammar.value)⟩
      else return ⟨keyword, .word⟩

/-- Reads an item, given how the list of an item is judged. -/
def metaItem (grammar : Grammar) (judge : List Tree → Option ParseError) : Parser MetaItem := do
  let trees ← ahead
  let isFlag := atWord "true" trees || atWord "false" trees
  if atLiteral trees && !(isFlag && atSymbol "=" (trees.drop 1)) then
    let _ ← literal?
    return .literal
  else if atAnyWord trees || (atSymbol "::" trees && atAnyWord (trees.drop 2)) then
    let found ← grammar.anyAttribute
    let name := found.keyword.text
    return match found.body with
      | .word => .word name
      | .value form => .value name form
      | .list inside => .list name (judge inside)
  else fail (.expected "identifier or literal")

/-- The grammar whose parts are nested at most `depth` deep in one another. -/
def ofDepth : (depth : Nat) → Grammar
  | 0 => exhausted
  | depth + 1 => {
      type := fun plus => (ofDepth depth).anyType plus
      argument := fun cursor => (ofDepth depth).anyArgument cursor
      bound := fun captures const => (ofDepth depth).anyBound captures const
      pattern := fun cursor => (ofDepth depth).anyPattern cursor
      operand := fun structures => (ofDepth depth).anyOperand structures
      operators := fun structures left base => (ofDepth depth).anyOperators structures left base
      arms := fun cursor => (ofDepth depth).anyArms cursor
      statements := fun cursor => (ofDepth depth).anyStatements cursor
      item := fun cursor => (ofDepth depth).anyItem cursor
      fields := fun cursor => (ofDepth depth).anyFields cursor
      imports := fun mayRestart => (ofDepth depth).anyImports mayRestart
      attributeBody := fun cursor => (discard (ofDepth depth).anyAttribute) cursor }

/-- The grammar for trees. Of parts nested in one another at most four start at the same tree. -/
def forTrees (trees : List Tree) : Grammar := ofDepth (4 * (sizeOfTrees trees + 4))

end Grammar

/-- What is wrong with the list of an item; lists inside it are not looked into. -/
def judgeItems (trees : List Tree) : Option ParseError :=
  match Parser.readAll (Parser.commaSeparated ((Grammar.forTrees trees).metaItem fun _ => none))
      trees with
  | .ok _ => none
  | .error error => some error

/-- Reads the items of a list. -/
def readItems (trees : List Tree) : Except ParseError (List MetaItem) :=
  Parser.readAll (Parser.commaSeparated ((Grammar.forTrees trees).metaItem judgeItems)) trees

end ProtoWire.Source
