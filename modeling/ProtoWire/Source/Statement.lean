import ProtoWire.Source.Item
import ProtoWire.Source.Operand

/-! # Statements

A block is a list of statements: bindings, expressions, calls of macros and items. An expression
that is not complete by itself ends with a semicolon, unless it is the last of the block.
-/

namespace ProtoWire.Source.Grammar

open Source.Parser

/-! ## Looking ahead -/

/-- The trees behind attributes. -/
def behindAttributes : List Tree → List Tree
  | .symbol '#' _ :: .group .square _ :: rest => behindAttributes rest
  | trees => trees

/-- The trees behind the path and the mark of a call of a macro. -/
def behindMacroMark? (trees : List Tree) : Option (List Tree) :=
  match plainPath.run { rest := trees } with
  | .ok (_, behind) => if atSymbol "!" behind.rest then some (behind.rest.drop 1) else none
  | .error _ => none

/-- The words that start an item whatever follows. -/
def itemWords : List String := [
  "pub", "extern", "use", "fn", "mod", "type", "struct", "enum", "trait", "impl", "macro"]

/-- Whether trees start an item with a word that may start an expression too. -/
def startsMarkedItem (trees : List Tree) : Bool :=
  let next := trees.drop 1
  let opensFunction (trees : List Tree) : Bool :=
    atWord "unsafe" trees || atWord "extern" trees || atWord "fn" trees
  (atWord "crate" trees && !atSymbol "::" next)
    || (atWord "static" trees && (atWord "mut" next || atName next))
    || (atWord "const" trees && !(atGroup .curly next || atWord "static" next
      || (atWord "async" next && !opensFunction (next.drop 1)) || atWord "move" next
      || atSymbol "|" next))
    || (atWord "unsafe" trees && !atGroup .curly next)
    || (atWord "async" trees && opensFunction next)
    || (atWord "union" trees && atName next)
    || (atWord "auto" trees && atWord "trait" next)
    || (atWord "default" trees && (atWord "unsafe" next || atWord "impl" next))

/-- Whether trees start an item that is the call of a macro with a name in front of its
arguments. -/
def startsNamedMacro (trees : List Tree) : Bool :=
  (behindMacroMark? trees).any fun behind => atName behind || atWord "try" behind

/-- Whether trees start an item. -/
def startsItem (trees : List Tree) : Bool :=
  itemWords.any (atWord · trees) || startsMarkedItem trees || startsNamedMacro trees

/-- Whether trees start the call of a macro with its arguments in curly braces, which is complete
unless it goes on with a member. -/
def startsMacroBlock (trees : List Tree) : Bool :=
  (behindMacroMark? trees).any fun behind =>
    atGroup .curly behind && !startsTrailer (behind.drop 1)

/-! ## Statements -/

/-- Reads a binding. What is done if its pattern does not match stands behind a value that does not
end with a block. -/
def bindingStatement (grammar : Grammar) : Parser Unit := do
  word "let"
  let _ ← grammar.pattern
  if ← symbol? ":" then
    let _ ← grammar.type true
  if ← symbol? "=" then
    let (_, isBraced) ← endsInBraces (grammar.expression true)
    if !isBraced && (← word? "else") then grammar.block
  symbol ";"

/-- Reads a call of a macro that is complete. -/
def macroStatement : Parser Unit := do
  let _ ← plainPath
  symbol "!"
  take 1
  let _ ← symbol? ";"

/-- Reads an expression with the attributes in front of it, which are not written before one that is
written as it is. Tells whether a semicolon has to follow. -/
def expressionStatement (grammar : Grammar) : Parser Bool := do
  let (_, attributes) ← capture grammar.outerAttributes
  let (⟨form, first⟩, text) ← capture grammar.untilComplete
  unless first == .verbatim && form != .range do write attributes
  write text
  if ← symbol? ";" then return false
  return !(form.isComplete || form == .macroCall true)

/-- Reads a statement. Tells whether a semicolon has to follow. -/
def statement (grammar : Grammar) : Parser Bool := do
  let trees := behindAttributes (← ahead)
  if startsMacroBlock trees then
    let _ ← grammar.outerAttributes
    macroStatement
    return false
  else if atWord "let" trees then
    let _ ← grammar.outerAttributes
    grammar.bindingStatement
    return false
  else if startsItem trees then
    grammar.item
    return false
  else grammar.expressionStatement

/-- Reads statements up to the end. -/
def anyStatements (grammar : Grammar) : Parser Unit := do
  for _ in ← turns do
    unless ← symbol? ";" do
      if (← ahead).isEmpty then break
      let needsSemicolon ← grammar.statement
      if needsSemicolon && !(← ahead).isEmpty then fail (.instead "token" "`;`")

end ProtoWire.Source.Grammar
