import ProtoWire.Source.Expression
import ProtoWire.Source.Parser
import ProtoWire.Source.TypeText

/-! # The grammar of source text

Types, patterns, expressions, statements and items hold one another. Each is read by a module of
its own, over readers for what it holds; those readers together are a grammar.
-/

namespace ProtoWire.Source

/-- Readers for the parts of a source text that hold one another. -/
structure Grammar where
  /-- A type; bounds may be added to it with a plus sign or not. -/
  type : (plus : Bool) → Parser ReadType
  /-- An argument in angle brackets. -/
  argument : Parser GenericArgument
  /-- A bound, which may be a list of captures or not, and constant or not. -/
  bound : (captures const : Bool) → Parser BoundForm
  /-- A pattern without alternatives. Tells whether it is a range with one bound. -/
  pattern : Parser Bool
  /-- An operand with the operators in front of it. A path in it may be followed by the fields of a
  structure or not. -/
  operand : (structures : Bool) → Parser ExpressionForm
  /-- The rest of an expression behind an operand: operators that bind at least as tightly. -/
  operators : (structures : Bool) → ExpressionForm → Precedence → Parser ExpressionForm
  /-- The arms of a match. -/
  arms : Parser Unit
  /-- The statements of a block. -/
  statements : Parser Unit
  /-- An item with its attributes. -/
  item : Parser Unit
  /-- Fields with names. -/
  fields : Parser Unit
  /-- What is brought into scope behind a path, where a path may start anew at the root or not.
  Tells whether one does. -/
  imports : (mayRestart : Bool) → Parser Bool
  /-- What an attribute holds between its brackets. -/
  attributeBody : Parser Unit

namespace Grammar

/-- A grammar that reads nothing. -/
def exhausted : Grammar :=
  let stop {α : Type} : Parser α := Parser.failHere (.forbidden "nested too deeply")
  { type := fun _ => stop
    argument := stop
    bound := fun _ _ => stop
    pattern := stop
    operand := fun _ => stop
    operators := fun _ _ _ => stop
    arms := stop
    statements := stop
    item := stop
    fields := stop
    imports := fun _ => stop
    attributeBody := stop }

open Source.Parser

/-- Reads an expression. -/
def expression (grammar : Grammar) (structures : Bool) : Parser ExpressionForm := do
  grammar.operators structures (← grammar.operand structures) .jump

/-- Reads the attributes in front of something, and whether there are any. -/
def outerAttributes (grammar : Grammar) : Parser Bool := do
  let mut found := false
  for _ in ← turns do
    unless ← symbol? "#" do break
    group .square grammar.attributeBody
    found := true
  return found

/-- Reads the attributes at the start of a block. -/
def innerAttributes (grammar : Grammar) : Parser Unit := do
  for _ in ← turns do
    let trees ← ahead
    unless atSymbol "#" trees && atSymbol "!" (trees.drop 1) do break
    take 2
    group .square grammar.attributeBody

/-- Reads a block. -/
def block (grammar : Grammar) : Parser Unit := group .curly grammar.statements

/-- Reads a block that may start with attributes. -/
def body (grammar : Grammar) : Parser Unit :=
  group .curly do
    grammar.innerAttributes
    grammar.statements

end Grammar

end ProtoWire.Source
