import ProtoWire.Source.Associated
import ProtoWire.Source.Imports

/-! # Items

An item is a function, a type, a trait, an implementation or anything else that a module may hold.
An item that is accepted and has no meaning is written as it is, together with its attributes.
-/

namespace ProtoWire.Source.Grammar

open Source.Parser

/-- What an item may start with behind its attributes, as long as it is no call of a macro. -/
def itemFronts : List Front :=
  ["fn", "extern", "use", "static", "const", "unsafe", "mod", "type", "struct", "enum", "union",
    "trait", "auto", "impl", "default", "macro"].map .word

/-- Reads what stands between curly braces behind attributes, up to the end. -/
def members (grammar : Grammar) (member : Parser Unit) : Parser Unit :=
  group .curly do
    grammar.innerAttributes
    untilEnd member

/-! ## What is outside -/

/-- Reads a block of foreign items, which nothing may stand in front of that tells who may see
it. -/
def foreignBlock (grammar : Grammar) (isVisible : Bool) : Parser Unit := do
  if isVisible then failHere (.expected "`extern`")
  let _ ← word? "unsafe"
  linkage?
  grammar.members grammar.foreignMember

/-- Reads a foreign library from the second word on. -/
def foreignLibrary : Parser Unit := do
  word "crate"
  unless ← word? "self" do
    let _ ← name
  if ← word? "as" then
    unless ← word? "_" do
      let _ ← name
  symbol ";"

/-- Reads an item from outside. -/
def foreignItem (grammar : Grammar) (isVisible : Bool) : Parser Unit := do
  let next := (← ahead).drop 1
  if atWord "crate" next then
    take 1
    foreignLibrary
  else if atGroup .curly next || (atText next && atGroup .curly (next.drop 1)) then
    grammar.foreignBlock isVisible
  else if atText next then
    take 2
    failAmong [.group .curly]
  else
    take 1
    failAmong [.word "crate", .group .curly, .text]

/-! ## Values and modules -/

/-- Reads a variable. Tells whether its type or its value is missing. -/
def variableItem (grammar : Grammar) : Parser Bool := do
  word "static"
  let _ ← word? "mut"
  let _ ← name
  let hasType := !atSymbol "=" (← ahead)
  if hasType then
    symbol ":"
    let _ ← grammar.type true
    if ← symbol? ";" then return true
  symbol "="
  let _ ← grammar.expression true
  symbol ";"
  return !hasType

/-- Reads a module. -/
def moduleItem (grammar : Grammar) : Parser Unit := do
  let _ ← word? "unsafe"
  word "mod"
  unless ← word? "try" do
    let _ ← name
  if atGroup .curly (← ahead) then grammar.members grammar.item
  else unless ← symbol? ";" do failAmong [.symbol ";", .group .curly]

/-- Reads the definition of a macro. -/
def macroDefinition : Parser Unit := do
  word "macro"
  let _ ← name
  let hasArguments := atGroup .round (← ahead)
  if hasArguments then take 1
  if atGroup .curly (← ahead) then take 1
  else failAmong ((if hasArguments then [] else [.group .round]) ++ [.group .curly])

/-! ## Types -/

/-- Reads a declared type with its variants or fields. -/
def declaredItem (grammar : Grammar) : Parser Unit := do
  let kind ← anyWord
  let _ ← name
  let _ ← grammar.parameters
  let attributes := grammar.outerAttributes
  match kind with
  | "struct" =>
      let _ ← grammar.structureFields attributes
  | "enum" =>
      let _ ← grammar.variants attributes
  | _ =>
      let _ ← grammar.overlappingFields attributes

/-! ## Traits and implementations -/

/-- Whether the traits that a trait builds on end before trees. -/
def endsTraitBounds (trees : List Tree) : Bool := atWord "where" trees || atGroup .curly trees

/-- Whether the traits that a trait stands for end before trees. -/
def endsTraitAlias (trees : List Tree) : Bool := atWord "where" trees || atSymbol ";" trees

/-- Reads what comes behind the name and the parameters of a trait. -/
def traitBody (grammar : Grammar) : Parser Unit := do
  grammar.declaredBounds? endsTraitBounds
  let _ ← grammar.conditions?
  grammar.members grammar.traitMember

/-- Reads a trait, or a trait that stands for others, which has no word in front. -/
def traitItem (grammar : Grammar) : Parser Unit := do
  let isUnsafe ← word? "unsafe"
  let isAuto ← word? "auto"
  word "trait"
  let _ ← name
  let _ ← grammar.parameters
  let trees ← ahead
  let startsBody := atGroup .curly trees || atSymbol ":" trees || atWord "where" trees
  if isUnsafe || isAuto || startsBody then grammar.traitBody
  else if ← symbol? "=" then
    let _ ← separated "+" endsTraitAlias (grammar.bound false false)
    let _ ← grammar.conditions?
    symbol ";"
  else failAmong [.group .curly, .symbol ":", .word "where", .symbol "="]

/-- Reads what is implemented. Only a path is a trait that is implemented for a type; what else
stands in its place makes the whole be written as it is, as does the answer. -/
def implemented (grammar : Grammar) : Parser Bool := do
  let start ← get
  let trees ← ahead
  let isNegative := atSymbol "!" trees && !atGroup .curly (trees.drop 1)
  if isNegative then take 1
  let first ← grammar.type true
  if ← word? "for" then
    let _ ← grammar.type true
    return !(first.form == .name || first.form == .path)
  else
    if isNegative then writeAsIs start
    return false

/-- Reads an implementation. Tells whether it is written as it is. -/
def implementation (grammar : Grammar) : Parser Bool := do
  let _ ← word? "default"
  let _ ← word? "unsafe"
  word "impl"
  if startsParameters (← ahead) then
    let _ ← grammar.parameters
  let trees ← ahead
  let isOptional := atSymbol "?" trees && atWord "const" (trees.drop 1)
  if isOptional then take 1
  let isConst ← word? "const"
  let isOdd ← grammar.implemented
  let _ ← grammar.conditions?
  grammar.members grammar.implementedMember
  return isConst || isOdd

/-! ## Items -/

/-- Reads an item that the word for unsafe parts starts. Tells whether it is written as it is. -/
def unsafeItem (grammar : Grammar) (isVisible : Bool) : Parser Bool := do
  let next := (← ahead).drop 1
  if atWord "trait" next || (atWord "auto" next && atWord "trait" (next.drop 1)) then
    grammar.traitItem
    return false
  else if atWord "impl" next then return (← grammar.implementation) || isVisible
  else if atWord "extern" next then
    grammar.foreignBlock isVisible
    return false
  else if atWord "mod" next then
    grammar.moduleItem
    return false
  else
    take 1
    failAmong (["trait", "auto", "impl", "extern", "mod"].map .word)

/-- Reads an item behind what tells who may see it. Tells whether it is written as it is. -/
def visibleItem (grammar : Grammar) (isVisible : Bool) : Parser Bool := do
  let trees ← ahead
  let next := trees.drop 1
  let plain (read : Parser Unit) : Parser Bool := do
    read
    return false
  if startsFunction false trees then grammar.functionItem
  else if atWord "extern" trees then plain (grammar.foreignItem isVisible)
  else if atWord "use" trees then grammar.importItem
  else if atWord "static" trees then grammar.variableItem
  else if atWord "const" trees then
    take 1
    let form ← grammar.constantItem
    return !form.hasValue || form.isGeneric
  else if atWord "unsafe" trees then grammar.unsafeItem isVisible
  else if atWord "mod" trees then plain grammar.moduleItem
  else if atWord "type" trees then
    let form ← grammar.aliasItem .beforeType
    return form.hasColon || !form.hasType
  else if atWord "struct" trees || atWord "enum" trees || (atWord "union" trees && atName next) then
    plain grammar.declaredItem
  else if atWord "trait" trees || (atWord "auto" trees && atWord "trait" next) then
    plain grammar.traitItem
  else if atWord "impl" trees || (atWord "default" trees && !atSymbol "!" next) then
    return (← grammar.implementation) || isVisible
  else if atWord "macro" trees then
    macroDefinition
    return true
  else if !isVisible && macroFronts.any (·.starts trees) then plain (macroItem true)
  else failAmong (itemFronts ++ if isVisible then [] else macroFronts)

/-- Reads an item with its attributes. -/
def anyItem (grammar : Grammar) : Parser Unit := do
  let _ ← asIsIf do
    let _ ← grammar.outerAttributes
    grammar.visibleItem (← visibility)
  return

end ProtoWire.Source.Grammar
