import ProtoWire.Source.Member
import ProtoWire.Source.Type

/-! # Patterns

A pattern is told by what it starts with. Nothing of it is kept but its text, and whether it is a
range with one bound: such a range does not stand among the elements of a slice.
-/

namespace ProtoWire.Source.Grammar

open Source.Parser

/-- What a pattern may start with. -/
def patternFronts : List Front := [
  .name, .symbol "::", .symbol "<", .word "_", .literal, .word "const", .word "ref", .word "mut",
  .symbol "&", .group .round, .group .square, .symbol "..", .word "const"]

/-- What the bound of a range may start with. -/
def rangeBoundFronts : List Front := [
  .literal, .name, .symbol "::", .symbol "<", .word "self", .word "Self", .word "super",
  .word "crate", .word "const"]

/-- Whether trees start another alternative. -/
def startsAlternative (trees : List Tree) : Bool :=
  atSymbol "|" trees && !atSymbol "||" trees && !atSymbol "|=" trees

/-- Reads a pattern with its alternatives. Tells whether it is a range with one bound. -/
def alternatives (grammar : Grammar) : Parser Bool := do
  let isMarked ← symbol? "|"
  let isHalfOpen ← grammar.pattern
  if isMarked || startsAlternative (← ahead) then
    for _ in ← turns do
      unless startsAlternative (← ahead) do break
      take 1
      let _ ← grammar.pattern
    return false
  else return isHalfOpen

/-! ## Ranges -/

/-- Whether a range ends before trees. -/
def endsPatternRange (trees : List Tree) : Bool :=
  trees.isEmpty || atSymbol "|" trees || atSymbol "=" trees
    || (atSymbol ":" trees && !atSymbol "::" trees) || atSymbol "," trees || atSymbol ";" trees
    || atWord "if" trees

/-- Reads a bound of a range, if there is one. -/
def rangeBound? (grammar : Grammar) : Parser Bool := do
  let trees ← ahead
  if endsPatternRange trees then return false
  else if (← literal?).isSome then return true
  else if startsPath trees then
    let _ ← grammar.path true
    return true
  else if atWord "const" trees then
    take 1
    grammar.body
    return true
  else failAmong rangeBoundFronts

/-- Reads the dots of a range and its upper bound, which may be missing only behind two dots and
nothing else. Three dots are written as a range that ends with its bound. Tells whether there is an
upper bound. -/
def rangeEnd (grammar : Grammar) : Parser Bool := do
  let isClosed ← if ← symbol? "..=" then pure true
    else if atSymbol "..." (← ahead) then
      skip 3
      write "..="
      pure true
    else
      symbol ".."
      pure false
  let isBounded ← grammar.rangeBound?
  if isClosed && !isBounded then fail (.expected "range upper bound")
  return isBounded

/-! ## Parts in brackets -/

/-- Reads the pattern for a field of a structure: a member with a pattern for it, or a name. -/
def fieldPattern (grammar : Grammar) : Parser Unit := do
  let isBoxed ← word? "box"
  let isReference ← word? "ref"
  let isMutable ← word? "mut"
  if isBoxed || isReference || isMutable then
    let _ ← name
  else
    let isNamed ← member
    if !isNamed || atSymbol ":" (← ahead) then
      symbol ":"
      let _ ← grammar.alternatives

/-- Reads the patterns for the fields of a structure, and the dots for all other fields. -/
def fieldPatterns (grammar : Grammar) : Parser Unit := do
  for _ in ← turns do
    if (← ahead).isEmpty then break
    let _ ← grammar.outerAttributes
    if ← symbol? ".." then break
    grammar.fieldPattern
    if (← ahead).isEmpty then break
    symbol ","

/-- Reads a pattern for an element of a slice. -/
def elementPattern (grammar : Grammar) : Parser Unit := do
  if ← grammar.alternatives then
    failHere (.forbidden "range pattern is not allowed unparenthesized inside slice pattern")

/-! ## Patterns -/

/-- Reads a pattern that starts with a path. -/
def pathPattern (grammar : Grammar) : Parser Bool := do
  let path ← grammar.path true
  let trees ← ahead
  if startsMacroMark trees && path.isPlain then
    take 1
    let _ ← macroArguments
    return false
  else if atGroup .curly trees then
    group .curly grammar.fieldPatterns
    return false
  else if atGroup .round trees then
    let _ ← group .round (commaSeparated grammar.alternatives)
    return false
  else if atSymbol ".." trees then return !(← grammar.rangeEnd)
  else return false

/-- Whether trees start a pattern that is more than a name. -/
def startsPathPattern (trees : List Tree) : Bool :=
  let next := trees.drop 1
  (atName trees && (atSymbol "::" next || atSymbol "!" next || atGroup .curly next
    || atGroup .round next || atSymbol ".." next))
    || (atWord "self" trees && atSymbol "::" next) || atSymbol "::" trees || atSymbol "<" trees
    || atWord "Self" trees || atWord "super" trees || atWord "crate" trees

/-- Reads a pattern that is a name, with a pattern for what is named perhaps. -/
def namePattern (grammar : Grammar) : Parser Unit := do
  let _ ← word? "ref"
  let _ ← word? "mut"
  unless ← word? "self" do
    let _ ← name
  if ← symbol? "@" then
    let _ ← grammar.pattern

/-- Reads a pattern that starts with no path, as long as it is no range. -/
def simplePattern (grammar : Grammar) : Parser Unit := do
  let trees ← ahead
  if atWord "_" trees then take 1
  else if atWord "box" trees then
    asIs do
      take 1
      let _ ← grammar.pattern
  else if atWord "ref" trees || atWord "mut" trees || atWord "self" trees || atName trees then
    grammar.namePattern
  else if atSymbol "&" trees then
    take 1
    let _ ← word? "mut"
    let _ ← grammar.pattern
  else if atGroup .round trees then
    let _ ← group .round (commaSeparated grammar.alternatives)
  else if atGroup .square trees then
    let _ ← group .square (commaSeparated grammar.elementPattern)
  else failAmong patternFronts

/-- Reads a pattern without alternatives. Tells whether it is a range with one bound. -/
def anyPattern (grammar : Grammar) : Parser Bool := do
  let trees ← ahead
  if startsPathPattern trees then grammar.pathPattern
  else if atSymbol "-" trees || atLiteral trees || atWord "const" trees then
    let _ ← grammar.rangeBound?
    if atSymbol ".." (← ahead) then return !(← grammar.rangeEnd)
    else return false
  else if atSymbol ".." trees && !atSymbol "..." trees then
    return ← grammar.rangeEnd
  else
    grammar.simplePattern
    return false

end ProtoWire.Source.Grammar
