import ProtoWire.Source.Field
import ProtoWire.Source.Pattern

/-! # Functions

A function is declared by its name, its parameters and its arguments. The first argument may be the
object itself, and the last may be dots that stand for all further ones.
-/

namespace ProtoWire.Source.Grammar

open Source.Parser

/-! ## Looking ahead -/

/-- The trees behind a word, if they start with it. -/
def behindWord (word : String) (trees : List Tree) : List Tree :=
  if atWord word trees then trees.drop 1 else trees

/-- Whether trees start a function; it may be marked as safe or not. -/
def startsFunction (safe : Bool) (trees : List Tree) : Bool :=
  let trees := behindWord "async" (behindWord "const" trees)
  let trees := if safe && atWord "safe" trees then trees.drop 1 else behindWord "unsafe" trees
  let linked := behindWord "extern" trees
  atWord "fn" linked || (atWord "extern" trees && atText linked && atWord "fn" (linked.drop 1))

/-! ## Arguments -/

/-- What an argument is. -/
inductive ArgumentForm where
  /-- The object itself. -/
  | receiver
  | typed
  /-- All further arguments. -/
  | dots
deriving DecidableEq, Repr

/-- Reads the object itself as an argument. -/
def receiver (grammar : Grammar) : Parser Unit := do
  let isReference ← symbol? "&"
  if isReference && atLifetime (← ahead) then take 1
  let _ ← word? "mut"
  word "self"
  unless isReference do
    if ← symbol? ":" then
      let _ ← grammar.type true

/-- Reads an argument. A type with arguments of its own needs no pattern in front of it. -/
def functionArgument (grammar : Grammar) : Parser ArgumentForm := do
  if ← symbol? "..." then return .dots
  if (← attempt grammar.receiver).isSome then return .receiver
  let trees ← ahead
  if atName trees && atSymbol "<" (trees.drop 1) then write "_:"
  else
    let _ ← grammar.pattern
    symbol ":"
    if ← symbol? "..." then return .dots
  let _ ← grammar.type true
  return .typed

/-- Reads the arguments of a function. -/
def functionArguments (grammar : Grammar) : Parser Unit := do
  let mut earlier := []
  for _ in ← turns do
    if (← ahead).isEmpty then break
    let _ ← grammar.outerAttributes
    let form ← grammar.functionArgument
    if form == .receiver then
      if earlier.contains .receiver then
        failHere (.forbidden "unexpected second method receiver")
      unless earlier.isEmpty do failHere (.forbidden "unexpected method receiver")
    earlier := form :: earlier
    if (← ahead).isEmpty then break
    symbol ","
    if form == .dots then break

/-! ## Functions -/

/-- Reads a function up to its body. It may be marked as safe or not; tells whether it is. -/
def signature (grammar : Grammar) (safe : Bool) : Parser Bool := do
  let _ ← word? "const"
  let _ ← word? "async"
  let isUnsafe ← word? "unsafe"
  let isSafe ← if safe && !isUnsafe then word? "safe" else pure false
  linkage?
  word "fn"
  let _ ← name
  let _ ← grammar.parameters
  groupThen .round grammar.functionArguments fun _ => do
    grammar.returnType true
    let _ ← grammar.conditions?
    return isSafe

end ProtoWire.Source.Grammar
