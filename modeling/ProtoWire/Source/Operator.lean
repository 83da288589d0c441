import ProtoWire.Source.Grammar

/-! # Operators

Behind an operand stand operators with operands of their own. An operator takes as its right
operand all that is bound more tightly than by itself; assignments take all assignments behind
them too. Ranges are no left operands, and comparisons are not chained.
-/

namespace ProtoWire.Source

/-- The operators between two operands, those first that others start with. -/
def binaryOperators : List (String × Precedence) := [
  ("&&", .and), ("||", .or), ("<<=", .assign), (">>=", .assign), ("+=", .assign),
  ("-=", .assign), ("*=", .assign), ("/=", .assign), ("%=", .assign), ("^=", .assign),
  ("&=", .assign), ("|=", .assign), ("<<", .shift), (">>", .shift), ("==", .compare),
  ("<=", .compare), ("!=", .compare), (">=", .compare), ("+", .sum), ("-", .sum),
  ("*", .product), ("/", .product), ("%", .product), ("^", .bitXor), ("&", .bitAnd),
  ("|", .bitOr), ("<", .compare), (">", .compare)]

/-- The operator that trees start with. -/
def binaryOperator? (trees : List Tree) : Option (String × Precedence) :=
  binaryOperators.find? fun (symbol, _) => atSymbol symbol trees

/-- How tightly the operator binds that trees start with, whatever its kind. -/
def nextPrecedence (trees : List Tree) : Precedence :=
  match binaryOperator? trees with
  | some (_, precedence) => precedence
  | none =>
      if atSymbol "=" trees && !atSymbol "=>" trees then .assign
      else if atSymbol ".." trees then .range
      else if atWord "as" trees then .cast
      else .jump

/-- Whether a range without an upper bound ends before trees. -/
def endsRange (structures : Bool) (trees : List Tree) : Bool :=
  trees.isEmpty || (atSymbol "." trees && !atSymbol ".." trees)
    || (!structures && atGroup .curly trees) || atWord "as" trees
    || [",", ";", "?", "=>", "=", "+", "/", "%", "^", ">", "<=", "!=", "-=", "*=", "&=", "|=",
      "<<="].any fun symbol => atSymbol symbol trees

/-- What must not follow a cast, if trees start with it. -/
def afterCast? (trees : List Tree) : Option String :=
  if atSymbol "." trees && !atSymbol ".." trees then
    let member := trees.drop 1
    if atWord "await" member then some "`.await`"
    else if atName member && (atGroup .round (member.drop 1) || atSymbol "::" (member.drop 1)) then
      some "a method call"
    else some "a field access"
  else if atSymbol "?" trees then some "`?`"
  else if atGroup .square trees then some "indexing"
  else if atGroup .round trees then some "a function call"
  else none

namespace Grammar

open Source.Parser

/-- Reads a right operand: all that is bound more tightly than by an operator in front of it. -/
def rightOperand (grammar : Grammar) (structures : Bool) (precedence : Precedence) :
    Parser ExpressionForm := do
  let mut form ← grammar.operand structures
  for _ in ← turns do
    let trees ← ahead
    let next := nextPrecedence trees
    unless precedence.rank < next.rank || (next == precedence && precedence == .assign) do break
    form ← grammar.operators structures form next
    if (← ahead).length == trees.length then break
  return form

/-- Reads the dots of a range and its upper bound, if it has one. -/
def rangeEnd? (grammar : Grammar) (structures : Bool) : Parser Unit := do
  let isClosed ← symbol? "..="
  unless isClosed do
    if atSymbol "..." (← ahead) then failAmong [.symbol "..", .symbol "..="]
    symbol ".."
  unless !isClosed && endsRange structures (← ahead) do
    let _ ← grammar.rightOperand structures .range

/-- Reads the operators behind an operand that bind at least as tightly as a base. -/
def anyOperators (grammar : Grammar) (structures : Bool) (left : ExpressionForm)
    (base : Precedence) : Parser ExpressionForm := do
  let mut form := left
  for _ in ← turns do
    let trees ← ahead
    if form == .range then break
    match binaryOperator? trees with
    | some (operator, precedence) =>
        if precedence.rank < base.rank then break
        if precedence == .compare && form == .binary .compare then
          fail (.forbidden "comparison operators cannot be chained")
        symbol operator
        let _ ← grammar.rightOperand structures precedence
        form := .binary precedence
    | none =>
        if base.rank ≤ Precedence.assign.rank && atSymbol "=" trees && !atSymbol "=>" trees then
          symbol "="
          let _ ← grammar.rightOperand structures .assign
          form := .assignment
        else if base.rank ≤ Precedence.range.rank && atSymbol ".." trees then
          grammar.rangeEnd? structures
          form := .range
        else if base.rank ≤ Precedence.cast.rank && atWord "as" trees then
          word "as"
          let _ ← grammar.type false
          match afterCast? (← ahead) with
          | some what => fail (.forbidden s!"casts cannot be followed by {what}")
          | none => form := .cast
        else break
  return form

end Grammar

end ProtoWire.Source
