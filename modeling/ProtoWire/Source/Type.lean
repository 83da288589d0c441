import ProtoWire.Source.Bound

/-! # Types

A type is told by what it starts with. Only of a path more is kept than its text: the container
that its last segment may be.
-/

namespace ProtoWire.Source

/-- The name of a path's last segment and the type that is its first argument, if there is one. -/
def Path.container? (path : Path) : Option (String × TypeText) :=
  match path.segments.getLast? with
  | some ⟨name, .angle (some argument)⟩ => some (name, argument)
  | _ => none

namespace Grammar

open Source.Parser

/-- What a type may start with. -/
def typeFronts : List Front := [
  .word "for", .group .round, .word "fn", .word "unsafe", .word "extern", .name, .symbol "::",
  .symbol "<", .word "dyn", .group .square, .symbol "*", .symbol "&", .symbol "!", .word "impl",
  .word "_", .lifetime]

/-- What a type may go on with that holds for lifetimes. -/
def boundTypeFronts : List Front := [
  .name, .word "fn", .word "unsafe", .word "extern", .word "super", .word "self", .word "Self",
  .word "crate"]

/-! ## Types of functions -/

/-- Reads how a function is called from outside, if that comes next. -/
def linkage? : Parser Unit := do
  if ← word? "extern" then
    if atText (← ahead) then take 1

/-- Whether trees start with a name, or the place of one, and a colon. -/
def startsLabel (trees : List Tree) : Bool :=
  (atName trees || atWord "_" trees) && atSymbol ":" (trees.drop 1)

/-- Whether trees start the dots for all further arguments, with a name perhaps. -/
def startsDots (trees : List Tree) : Bool :=
  atSymbol "..." trees || (startsLabel trees && atSymbol "..." (trees.drop 2))

/-- Reads the type of an argument, with a name perhaps. The first argument may be the object itself,
which is written as it is. -/
def typedArgument (grammar : Grammar) (isFirst : Bool) : Parser Unit := do
  let _ ← asIsIf do
    let trees ← ahead
    let startsMutable (trees : List Tree) : Bool :=
      isFirst && atWord "mut" trees && atWord "self" (trees.drop 1)
    let isMutable := startsMutable trees
    if isMutable then take 1
    let trees ← ahead
    let next := trees.drop 1
    let isSelf := isFirst && atWord "self" trees
    let isNamed := (atName trees || atWord "_" trees || isSelf) && atSymbol ":" next
      && !atSymbol "::" next
    if isNamed then take 2
    if startsMutable (← ahead) && !(isNamed && isSelf) then
      take 2
      return true
    else if isMutable && !isNamed then
      word "self"
      return true
    else
      let _ ← grammar.type true
      return isMutable
  return

/-- Reads the arguments of a function type. -/
def typedArguments (grammar : Grammar) : Parser Unit := do
  let mut isFirst := true
  for _ in ← turns do
    if (← ahead).isEmpty then break
    let _ ← grammar.outerAttributes
    if startsDots (← ahead) then
      if startsLabel (← ahead) then take 2
      symbol "..."
      let _ ← symbol? ","
      break
    grammar.typedArgument isFirst
    isFirst := false
    if (← ahead).isEmpty then break
    symbol ","

/-- Reads a function type. -/
def functionType (grammar : Grammar) : Parser Unit := do
  let _ ← word? "unsafe"
  linkage?
  word "fn"
  groupThen .round grammar.typedArguments fun _ => grammar.returnType false

/-! ## Types in brackets -/

/-- What stands in parentheses. -/
inductive RoundContent where
  /-- A type. -/
  | single (form : TypeForm)
  /-- A bound that does not have to hold. -/
  | optionalBound
  | other
deriving DecidableEq, Repr

/-- Reads what stands in parentheses: types, or bounds. -/
def roundContent (grammar : Grammar) : Parser RoundContent := do
  let trees ← ahead
  if trees.isEmpty then return .other
  else if atLifetime trees then
    grammar.objectBounds true
    return .other
  else if atSymbol "?" trees then
    let _ ← grammar.trait false
    return .optionalBound
  else
    let first ← grammar.type true
    if ← symbol? "," then
      let _ ← commaSeparated (grammar.type true)
      return .other
    else return .single first.form

/-- Reads types in parentheses, or bounds the first of which stands in parentheses. Of two pairs of
parentheses around a first bound one is written. -/
def roundType (grammar : Grammar) (plus : Bool) : Parser TypeForm := do
  let before := (← get).written
  let content : Parser (RoundContent × String) := do
    let (content, text) ← capture grammar.roundContent
    write text
    return (content, text)
  groupThen .round content fun (content, inside) => do
    let isAdded := atSymbol "+" (← ahead)
    match content with
    | .other => return .other
    | .optionalBound =>
        if isAdded then grammar.addedBounds
        return if isAdded then .other else .bound true
    | .single form =>
        if plus && isAdded && form != .other then
          if form == .bound true then
            modify fun cursor => { cursor with written := before ++ inside }
          grammar.addedBounds
        return .other

/-- Reads a slice, or an array with its length. -/
def squareType (grammar : Grammar) : Parser Unit :=
  group .square do
    let _ ← grammar.type true
    if ← symbol? ";" then
      let _ ← grammar.expression true

/-! ## Paths -/

/-- Reads more bounds behind a first one; after the last plus sign there may be none. -/
def moreBounds (grammar : Grammar) : Parser Unit := do
  for _ in ← turns do
    unless ← symbol? "+" do break
    unless startsBound false (← ahead) do break
    let _ ← grammar.bound false false

/-- Reads a path as a type, or what else starts with a path: a macro or bounds. -/
def pathType (grammar : Grammar) (plus holdsFor : Bool) :
    Parser (TypeForm × Option (String × TypeText)) := do
  let path ← grammar.path false
  let trees ← ahead
  if path.isQualified then return (.other, path.container?)
  else if startsMacroMark trees && path.isPlain then
    take 1
    let _ ← macroArguments
    return (.other, none)
  else if plus && atSymbol "+" trees then
    grammar.moreBounds
    return (.other, none)
  else if holdsFor then return (.bound false, none)
  else return (path.form, path.container?)

/-! ## Types -/

/-- Reads a type that is no path and does not start with a bracket. -/
def markedType (grammar : Grammar) (plus : Bool) : Parser Unit := do
  let trees ← ahead
  if atWord "dyn" trees then
    let _ ← asIsIf do
      take 1
      let isStarred ← symbol? "*"
      grammar.objectBounds plus
      return isStarred
  else if atSymbol "*" trees then
    take 1
    unless ← word? "const" do
      unless ← word? "mut" do failAmong [.word "const", .word "mut"]
    let _ ← grammar.type false
  else if atSymbol "&" trees then
    take 1
    if atLifetime (← ahead) then take 1
    let _ ← word? "mut"
    let _ ← grammar.type false
  else if atSymbol "!" trees || atWord "_" trees then take 1
  else if atWord "impl" trees then
    take 1
    grammar.opaqueBounds plus
  else if atLifetime trees then grammar.objectBounds true
  else failAmong typeFronts

/-- Reads a type, and tells of a path what its last segment contains. -/
def typeContainer (grammar : Grammar) (plus : Bool) :
    Parser (TypeForm × Option (String × TypeText)) := do
  let holdsFor ← grammar.boundLifetimes?
  let trees ← ahead
  if holdsFor && !boundTypeFronts.any (·.starts trees) then failAmong boundTypeFronts
  if atGroup .round trees then return (← grammar.roundType plus, none)
  else if atWord "fn" trees || atWord "unsafe" trees || atWord "extern" trees then
    grammar.functionType
    return (.other, none)
  else if startsPath trees then grammar.pathType plus holdsFor
  else if atGroup .square trees then
    grammar.squareType
    return (.other, none)
  else
    grammar.markedType plus
    return (.other, none)

/-- Reads a type. -/
def anyType (grammar : Grammar) (plus : Bool) : Parser ReadType := do
  let ((form, container), text) ← capture (grammar.typeContainer plus)
  write text
  let read := match container with
    | some (name, argument) => TypeText.container text name argument
    | none => TypeText.plain text
  return ⟨read, form⟩

/-! ## Arguments -/

/-- Reads an argument in angle brackets: a lifetime, a constant, or a type, which may turn out to be
a name that something is bound to. A lifetime with a bound added to it is a type. -/
def anyArgument (grammar : Grammar) : Parser GenericArgument := do
  let trees ← ahead
  if atLifetime trees && !atSymbol "+" (trees.drop 1) then
    take 1
    return .lifetime
  else if atLiteral trees || atGroup .curly trees then
    grammar.constant
    return .other
  else
    let argument ← grammar.type true
    if argument.form != .name then return .type argument.text
    else if ← symbol? "=" then
      let trees ← ahead
      if atLiteral trees || atGroup .curly trees then grammar.constant
      else
        let _ ← grammar.type true
      return .other
    else if ← symbol? ":" then
      let endsHere (trees : List Tree) : Bool := atSymbol "," trees || atAngleEnd trees
      let _ ← joined "+" endsHere (grammar.bound false true)
      return .other
    else return .type argument.text

end Grammar

end ProtoWire.Source
