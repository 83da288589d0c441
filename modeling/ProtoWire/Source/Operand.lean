import ProtoWire.Source.Operator
import ProtoWire.Source.Pattern

/-! # Operands

An operand is an expression without operators between operands: it is told by what it starts with,
and goes on with calls, fields and indices behind it and operators in front of it.
-/

namespace ProtoWire.Source.Grammar

open Source.Parser

/-! ## Behind an expression -/

/-- Whether trees start a field, a call of a method or the passing on of an error. -/
def startsTrailer (trees : List Tree) : Bool :=
  (atSymbol "." trees && !atSymbol ".." trees) || atSymbol "?" trees

/-- Reads a member behind its dot: a field, or a call of a method. -/
def memberOf (grammar : Grammar) : Parser ExpressionForm := do
  if ← word? "await" then return .awaited
  let isNamed ← member
  let turbofish := isNamed && atSymbol "::" (← ahead)
  if turbofish then
    symbol "::"
    let _ ← grammar.angleArguments
  if turbofish || (isNamed && atGroup .round (← ahead)) then
    let _ ← group .round (commaSeparated (grammar.expression true))
    return .methodCall
  else return .field

/-- Reads the calls, fields and indices behind an expression. -/
def trailers (grammar : Grammar) (first : ExpressionForm) : Parser ExpressionForm := do
  let mut form := first
  for _ in ← turns do
    let trees ← ahead
    if atGroup .round trees then
      let _ ← group .round (commaSeparated (grammar.expression true))
      form := .call
    else if atGroup .square trees then
      let _ ← group .square (grammar.expression true)
      form := .index
    else if form == .range || !startsTrailer trees then break
    else if ← symbol? "?" then form := .tried
    else
      symbol "."
      match ← nestedPositions? with
      | some false => form := .field
      | _ => form ← grammar.memberOf
  return form

/-! ## Parts of expressions -/

/-- Reads an argument of a closure. Attributes are not written before a boxed pattern without a
type, which is written as it is. -/
def closureArgument (grammar : Grammar) : Parser Unit := do
  let (_, attributes) ← capture grammar.outerAttributes
  let isBoxed := atWord "box" (← ahead)
  let (_, pattern) ← capture grammar.pattern
  unless isBoxed && !atSymbol ":" (← ahead) do write attributes
  write pattern
  if ← symbol? ":" then
    let _ ← grammar.type true

/-- Reads a closure. -/
def closure (grammar : Grammar) (structures : Bool) : Parser Unit := do
  let _ ← grammar.boundLifetimes?
  let _ ← word? "const"
  let _ ← word? "static"
  let _ ← word? "async"
  let _ ← word? "move"
  symbol "|"
  let _ ← separated "," (atSymbol "|") grammar.closureArgument
  symbol "|"
  if ← symbol? "->" then
    let _ ← grammar.type true
    grammar.block
  else
    let _ ← grammar.expression structures

/-- Reads the value of a field of a structure. -/
def fieldValue (grammar : Grammar) : Parser Unit := do
  let _ ← grammar.outerAttributes
  let isNamed ← member
  if !isNamed || atSymbol ":" (← ahead) then
    symbol ":"
    let _ ← grammar.expression true

/-- Reads the values of the fields of a structure, and at last what all other fields are taken
from. -/
def fieldValues (grammar : Grammar) : Parser Unit := do
  for _ in ← turns do
    if (← ahead).isEmpty then break
    if ← symbol? ".." then
      unless (← ahead).isEmpty do
        let _ ← grammar.expression true
      break
    grammar.fieldValue
    if (← ahead).isEmpty then break
    symbol ","

/-- Reads a path, or what else starts with a path: a macro or a structure. -/
def pathExpression (grammar : Grammar) (structures : Bool) : Parser ExpressionForm := do
  let path ← grammar.path true
  let trees ← ahead
  if startsMacroMark trees && path.isPlain then
    take 1
    return .macroCall ((← macroArguments) == .curly)
  else if structures && atGroup .curly trees then
    group .curly grammar.fieldValues
    return .structured
  else return .path

/-- Reads an expression in parentheses, or expressions with commas between them. -/
def roundExpression (grammar : Grammar) : Parser ExpressionForm :=
  group .round do
    if (← ahead).isEmpty then return .tuple
    let _ ← grammar.expression true
    if (← ahead).isEmpty then return .parenthesized
    symbol ","
    let _ ← commaSeparated (grammar.expression true)
    return .tuple

/-- Reads elements in square brackets, or one element and how often it is repeated. -/
def squareExpression (grammar : Grammar) : Parser ExpressionForm :=
  group .square do
    if (← ahead).isEmpty then return .array
    let _ ← grammar.expression true
    if (← ahead).isEmpty then return .array
    if ← symbol? "," then
      let _ ← commaSeparated (grammar.expression true)
      return .array
    if ← symbol? ";" then
      let _ ← grammar.expression true
      return .repeated
    fail (.expected "`,` or `;`")

/-- Whether an expression may start with trees. -/
def startsExpression (trees : List Tree) : Bool :=
  let lone (symbol : String) (longer : List String) : Bool :=
    atSymbol symbol trees && !longer.any (atSymbol · trees)
  (atAnyWord trees && !atWord "as" trees) || Bracket.all.any (atGroup · trees) || atLiteral trees
    || lone "!" ["!="] || lone "-" ["-=", "->"] || lone "*" ["*="] || lone "|" ["|="]
    || lone "&" ["&="] || atSymbol ".." trees || lone "<" ["<=", "<<="] || atSymbol "::" trees
    || atLifetime trees || atSymbol "#" trees

/-- Reads an expression if one comes next. -/
def expression? (grammar : Grammar) : Parser Unit := do
  if startsExpression (← ahead) then
    let _ ← grammar.expression true

/-- Reads an exit from a loop. Its label is not that of a loop inside it. -/
def breakExpression (grammar : Grammar) (structures : Bool) : Parser Unit := do
  word "break"
  let trees ← ahead
  if atLifetime trees then
    if atSymbol ":" (trees.drop 1) then
      let _ ← grammar.expression true
      failHere (.forbidden "parentheses required")
    take 1
  if structures || !atGroup .curly (← ahead) then grammar.expression?

/-- Reads conditions with their blocks. -/
def conditional (grammar : Grammar) : Parser Unit := do
  for _ in ← turns do
    word "if"
    let _ ← grammar.expression false
    grammar.block
    unless ← word? "else" do break
    let trees ← ahead
    if atGroup .curly trees then
      grammar.block
      break
    unless atWord "if" trees do failAmong [.word "if", .group .curly]

/-- Reads a loop over a condition, over the elements of something, or without an end. -/
def loop (grammar : Grammar) : Parser ExpressionForm := do
  if ← word? "while" then
    let _ ← grammar.expression false
    grammar.body
    return .whileLoop
  else if ← word? "for" then
    let _ ← grammar.alternatives
    word "in"
    let _ ← grammar.expression false
    grammar.body
    return .forLoop
  else
    word "loop"
    grammar.body
    return .loop

/-- Whether trees start a loop. -/
def startsLoop (trees : List Tree) : Bool :=
  atWord "while" trees || atWord "for" trees || atWord "loop" trees

/-- Reads a loop or a block behind its label. -/
def labelled (grammar : Grammar) : Parser ExpressionForm := do
  lifetime
  symbol ":"
  let trees ← ahead
  if startsLoop trees then grammar.loop
  else if atGroup .curly trees then
    grammar.body
    return .block
  else fail (.expected "loop or block expression")

/-! ## Expressions that are complete -/

/-- Whether trees start the lifetimes that a closure holds for. -/
def startsBoundClosure (trees : List Tree) : Bool :=
  atWord "for" trees && atSymbol "<" (trees.drop 1)
    && (atLifetime (trees.drop 2) || atSymbol ">" (trees.drop 2))

/-- Whether trees start a block with a word in front of it. -/
def startsMarkedBlock (word : String) (trees : List Tree) : Bool :=
  atWord word trees && atGroup .curly (trees.drop 1)

/-- Reads an expression that is complete as a statement, from its first word on. -/
def blockLike? (grammar : Grammar) : Parser (Option ExpressionForm) := do
  let trees ← ahead
  let marked (form : ExpressionForm) (block : Parser Unit) : Parser (Option ExpressionForm) := do
    take 1
    block
    return some form
  if atWord "if" trees then
    grammar.conditional
    return some .conditional
  else if startsLoop trees && !startsBoundClosure trees then return some (← grammar.loop)
  else if atWord "match" trees then
    take 1
    let _ ← grammar.expression false
    group .curly grammar.arms
    return some .matching
  else if startsMarkedBlock "try" trees then marked .tryBlock grammar.block
  else if atWord "unsafe" trees then marked .unsafeBlock grammar.body
  else if startsMarkedBlock "const" trees then marked .constBlock grammar.body
  else if atGroup .curly trees then
    grammar.body
    return some .block
  else if atLifetime trees then return some (← grammar.labelled)
  else return none

/-- An expression that was read as a statement. -/
structure ReadStatement where
  form : ExpressionForm
  /-- What the expression starts with, up to its first operator. -/
  first : ExpressionForm

/-- Reads an expression as a statement or as the arm of a match: one that is complete ends there,
unless a member or an error is asked of it. -/
def untilComplete (grammar : Grammar) : Parser ReadStatement := do
  let (_, attributes) ← capture grammar.outerAttributes
  let ((form, first), text) ← capture do
    match ← grammar.blockLike? with
    | some form =>
        if startsTrailer (← ahead) then
          let first ← grammar.trailers form
          return (← grammar.operators true first .jump, first)
        else return (form, form)
    | none =>
        let first ← grammar.operand true
        return (← grammar.operators true first .jump, first)
  unless first == .verbatim do write attributes
  write text
  return ⟨form, first⟩

/-- Reads the arms of a match. -/
def anyArms (grammar : Grammar) : Parser Unit := do
  grammar.innerAttributes
  untilEnd do
    let _ ← grammar.outerAttributes
    let _ ← grammar.alternatives
    if ← word? "if" then
      let _ ← grammar.expression true
    symbol "=>"
    let ⟨form, _⟩ ← grammar.untilComplete
    if form.isComplete || (← ahead).isEmpty then
      let _ ← symbol? ","
    else symbol ","

/-! ## Operands -/

/-- Whether trees start a closure. -/
def startsClosure (trees : List Tree) : Bool :=
  let next := trees.drop 1
  atSymbol "|" trees || atWord "move" trees || startsBoundClosure trees
    || (atWord "const" trees && !atGroup .curly next) || atWord "static" trees
    || (atWord "async" trees && (atSymbol "|" next || atWord "move" next))

/-- Whether trees start a block that runs later. -/
def startsAsyncBlock (trees : List Tree) : Bool :=
  startsMarkedBlock "async" trees
    || (atWord "async" trees && startsMarkedBlock "move" (trees.drop 1))

/-- Reads an expression that starts with a word of its own and is not complete. -/
def marked? (grammar : Grammar) (structures : Bool) : Parser (Option ExpressionForm) := do
  let trees ← ahead
  if atWord "break" trees then
    grammar.breakExpression structures
    return some .breaking
  else if ← word? "continue" then
    if atLifetime (← ahead) then take 1
    return some .continuing
  else if ← word? "return" then
    grammar.expression?
    return some .returning
  else if atWord "become" trees then
    asIs do
      take 1
      let _ ← grammar.expression true
    return some .verbatim
  else if ← word? "let" then
    let _ ← grammar.alternatives
    symbol "="
    let _ ← grammar.operators structures (← grammar.operand structures) .compare
    return some .binding
  else if ← word? "yield" then
    grammar.expression?
    return some .yielding
  else return none

/-- Reads an operand without what stands in front of it and behind it. -/
def atom (grammar : Grammar) (structures : Bool) : Parser ExpressionForm := do
  let trees ← ahead
  let next := trees.drop 1
  if let some literal ← literal? then return .literal literal
  else if startsAsyncBlock trees then
    take 1
    let _ ← word? "move"
    grammar.block
    return .asyncBlock
  else if startsClosure trees then
    grammar.closure structures
    return .closure
  else if atWord "builtin" trees && atSymbol "#" next then
    take 2
    let _ ← name
    let _ ← wholeGroup .round
    return .verbatim
  else if startsPath trees || (atWord "try" trees && (atSymbol "!" next || atSymbol "::" next)) then
    grammar.pathExpression structures
  else if atGroup .round trees then grammar.roundExpression
  else if atGroup .square trees then grammar.squareExpression
  else if let some form ← grammar.marked? structures then return form
  else if let some form ← grammar.blockLike? then return form
  else if atSymbol ".." trees then
    grammar.rangeEnd? structures
    return .range
  else if ← word? "_" then return .placeholder
  else fail (.expected "an expression")

/-- Reads the address of an operand. -/
def address (grammar : Grammar) (structures : Bool) : Parser ExpressionForm := do
  symbol "&"
  let trees ← ahead
  let isRaw := atWord "raw" trees && (atWord "mut" (trees.drop 1) || atWord "const" (trees.drop 1))
  if isRaw then take 2
  else
    let _ ← word? "mut"
  let _ ← grammar.operand structures
  return if isRaw then .rawAddress else .reference

/-- Reads an operand. -/
def anyOperand (grammar : Grammar) (structures : Bool) : Parser ExpressionForm := do
  let start ← get
  let isMarked ← grammar.outerAttributes
  let trees ← ahead
  if atSymbol "&" trees then grammar.address structures
  else if atSymbol "*" trees || atSymbol "!" trees || atSymbol "-" trees then
    take 1
    let _ ← grammar.operand structures
    return .unary
  else
    let form ← grammar.trailers (← grammar.atom structures)
    if form == .verbatim then writeAsIs start
    if isMarked && form == .range then
      failHere (.forbidden "attributes are not allowed on range expressions starting with `..`")
    return form

end ProtoWire.Source.Grammar
