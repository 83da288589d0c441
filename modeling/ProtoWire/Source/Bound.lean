import ProtoWire.Source.Parameter

/-! # Bounds

A bound is a lifetime, a list of captures or a trait. A trait may hold for lifetimes, may be
constant, and may be marked as one that does not have to hold; its path may have arguments in
parentheses.
-/

namespace ProtoWire.Source.Grammar

open Source.Parser

/-! ## Traits -/

/-- Reads what comes behind the arrow of a function, if there is an arrow. -/
def returnType (grammar : Grammar) (plus : Bool) : Parser Unit := do
  if ← symbol? "->" then
    let _ ← grammar.type plus

/-- Reads arguments in parentheses, as of a function, if they come next; of double colons in front
of them nothing is written. -/
def roundArguments? (grammar : Grammar) : Parser Unit := do
  let trees ← ahead
  let colons := atSymbol "::" trees && atGroup .round (trees.drop 2)
  if colons then skip 2
  if colons || atGroup .round trees then
    let _ ← group .round (commaSeparated (grammar.type true))
    grammar.returnType false

/-- Reads the mark of a constant trait, if it comes next. -/
def constantMark? (isAllowed : Bool) : Parser Bool := do
  if atGroup .square (← ahead) then
    group .square (word "const")
    unless isAllowed do failHere (.forbidden "`[const]` is not allowed here")
    return true
  else if ← word? "const" then
    unless isAllowed do failHere (.forbidden "`const` is not allowed here")
    return true
  else return false

/-- Reads a trait, and tells whether it is constant. -/
def trait (grammar : Grammar) (const : Bool) : Parser Bool := do
  let holdsFor ← grammar.boundLifetimes?
  let isConst ← constantMark? const
  let isOptional ← symbol? "?"
  let holdsFor ← if isOptional && !holdsFor then grammar.boundLifetimes? else pure holdsFor
  let path ← grammar.unqualifiedPath false
  if path.endsPlain then grammar.roundArguments?
  if holdsFor && isOptional then
    failHere (.forbidden "`for<...>` binder not allowed with `?` trait polarity modifier")
  return isConst

/-! ## Captures -/

/-- Whether trees start with something that can be captured. -/
def startsCapture (trees : List Tree) : Bool :=
  atLifetime trees || atName trees || atWord "Self" trees

/-- Reads one capture, and tells whether it is a lifetime. -/
def capture? : Parser Bool := do
  let trees ← ahead
  unless startsCapture trees do failAmong [.lifetime, .name, .symbol ">"]
  take 1
  unless atSymbol "," (← ahead) || atAngleEnd (← ahead) do failAmong [.symbol ",", .symbol ">"]
  return atLifetime trees

/-- Reads a list of captures. -/
def captures : Parser Unit := do
  word "use"
  symbol "<"
  let _ ← lifetimesFirst id capture?
  symbol ">"

/-! ## Bounds -/

/-- Reads a bound. A constant trait is written as it is. -/
def anyBound (grammar : Grammar) (captures const : Bool) : Parser BoundForm := do
  let trees ← ahead
  if atLifetime trees then
    take 1
    return .lifetime
  else if atWord "use" trees then
    Grammar.captures
    unless captures do
      failHere (.forbidden "`use<...>` precise capturing syntax is not allowed here")
    return .captures
  else
    let isConst ← asIsIf
      (if atGroup .round trees then group .round (grammar.trait const) else grammar.trait const)
    return if isConst then .constTrait else .trait

/-- Whether a bound may start with trees. -/
def startsBound (const : Bool) (trees : List Tree) : Bool :=
  atAnyWord trees || atSymbol "::" trees || atSymbol "?" trees || atLifetime trees
    || atGroup .round trees || (const && atGroup .square trees)

/-- Reads bounds with plus signs between them, if more than one may come; after the last there may
be one. -/
def bounds (grammar : Grammar) (plus captures const : Bool) : Parser (List BoundForm) := do
  let mut found := #[]
  for _ in ← turns do
    found := found.push (← grammar.bound captures const)
    unless plus && atSymbol "+" (← ahead) do break
    take 1
    unless startsBound const (← ahead) do break
  return found.toList

/-- Reads the bounds of an object type. -/
def objectBounds (grammar : Grammar) (plus : Bool) : Parser Unit := do
  unless (← grammar.bounds plus false false).contains .trait do
    failHere (.forbidden "at least one trait is required for an object type")

/-- Reads the bounds of a type that is known only by them. -/
def opaqueBounds (grammar : Grammar) (plus : Bool) : Parser Unit := do
  let found ← grammar.bounds plus true true
  unless found.contains .trait || found.contains .constTrait do
    failHere (.forbidden "at least one trait must be specified")

/-- Reads bounds behind plus signs, as long as plus signs come. -/
def addedBounds (grammar : Grammar) : Parser Unit := do
  for _ in ← turns do
    unless ← symbol? "+" do break
    let _ ← grammar.bound false false

end ProtoWire.Source.Grammar
