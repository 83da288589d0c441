import ProtoWire.Source.Literal

/-! # Forms of expressions

A value in an attribute is an expression. Only literals mean something there; of every other
expression its form is told.
-/

namespace ProtoWire.Source

/-- How tightly operators bind, from the loosest to the tightest. -/
inductive Precedence where
  | jump
  | assign
  | range
  | or
  | and
  | binding
  | compare
  | bitOr
  | bitXor
  | bitAnd
  | shift
  | sum
  | product
  | cast
deriving DecidableEq, Repr

/-- The place of a precedence in the order. -/
def Precedence.rank (precedence : Precedence) : Nat := precedence.ctorIdx

/-- The forms of expressions. -/
inductive ExpressionForm where
  | array
  | assignment
  | asyncBlock
  | awaited
  | binary (precedence : Precedence)
  | binding
  | block
  | breaking
  | call
  | cast
  | closure
  | conditional
  | constBlock
  | continuing
  | field
  | forLoop
  | index
  | literal (value : Literal)
  | loop
  /-- A call of a macro, with its arguments in curly braces or in others. -/
  | macroCall (isBraced : Bool)
  | matching
  | methodCall
  | parenthesized
  | path
  | placeholder
  | range
  | rawAddress
  | reference
  | repeated
  | returning
  | structured
  | tried
  | tryBlock
  | tuple
  | unary
  | unsafeBlock
  | verbatim
  | whileLoop
  | yielding
deriving DecidableEq, Repr

namespace ExpressionForm

/-- The name of a form; a literal goes by its own kind. -/
def kind : ExpressionForm → String
  | .array => "array"
  | .assignment => "assign"
  | .asyncBlock => "async"
  | .awaited => "await"
  | .binary _ => "binary"
  | .binding => "let"
  | .block => "block"
  | .breaking => "break"
  | .call => "call"
  | .cast => "cast"
  | .closure => "closure"
  | .conditional => "if"
  | .constBlock => "const"
  | .continuing => "continue"
  | .field => "field"
  | .forLoop => "for_loop"
  | .index => "index"
  | .literal value => value.kind
  | .loop => "loop"
  | .macroCall _ => "macro"
  | .matching => "match"
  | .methodCall => "method_call"
  | .parenthesized => "paren"
  | .path => "path"
  | .placeholder => "infer"
  | .range => "range"
  | .rawAddress => "unknown"
  | .reference => "reference"
  | .repeated => "repeat"
  | .returning => "return"
  | .structured => "struct"
  | .tried => "try"
  | .tryBlock => "try_block"
  | .tuple => "tuple"
  | .unary => "unary"
  | .unsafeBlock => "unsafe"
  | .verbatim => "verbatim"
  | .whileLoop => "while"
  | .yielding => "yield"

/-- Whether an expression is complete as a statement without a semicolon, or as the arm of a match
without a comma. -/
def isComplete : ExpressionForm → Bool
  | .block | .conditional | .constBlock | .forLoop | .loop | .matching | .tryBlock
  | .unsafeBlock | .whileLoop => true
  | _ => false

end ExpressionForm

end ProtoWire.Source
