import ProtoWire.Source.Function

/-! # Associated items

Traits, their implementations and blocks of foreign items hold functions, constants, types and calls
of macros. What is accepted there and has no meaning is written as it is.
-/

namespace ProtoWire.Source

/-- How a constant is declared. -/
structure ConstantForm where
  hasValue : Bool
  /-- Whether it has angle brackets for parameters, or conditions. -/
  isGeneric : Bool
deriving DecidableEq, Repr

/-- How a type is declared to be another one. -/
structure AliasForm where
  hasColon : Bool
  hasType : Bool
deriving DecidableEq, Repr

/-- Where the conditions of a type stand that is declared to be another one. -/
inductive ConditionPlace where
  | beforeType
  | afterType
  | anywhere
deriving DecidableEq, Repr

namespace Grammar

open Source.Parser

/-! ## Parts of items -/

/-- Reads a constant behind its first word. -/
def constantItem (grammar : Grammar) : Parser ConstantForm := do
  let trees ← ahead
  unless atName trees || atWord "_" trees do failAmong [.name, .word "_"]
  take 1
  let (_, hasBrackets) ← grammar.parameters
  symbol ":"
  let _ ← grammar.type true
  let hasValue ← symbol? "="
  if hasValue then
    let _ ← grammar.expression true
  let hasConditions ← grammar.conditions?
  symbol ";"
  return ⟨hasValue, hasBrackets || hasConditions⟩

/-- Reads a colon and the bounds behind it, up to where they end, if a colon comes next. Without
bounds it is not written. -/
def declaredBounds? (grammar : Grammar) (ends : List Tree → Bool) : Parser Unit := do
  let (found, text) ← capture do
    if ← symbol? ":" then separated "+" ends (grammar.bound false true) else return []
  unless found.isEmpty do write text

/-- Whether the bounds of a declared type end before trees. -/
def endsAliasBounds (trees : List Tree) : Bool :=
  atWord "where" trees || atSymbol "=" trees || atSymbol ";" trees

/-- Reads a type that is declared to be another one, from its first word on. -/
def aliasItem (grammar : Grammar) (place : ConditionPlace) : Parser AliasForm := do
  word "type"
  let _ ← name
  let _ ← grammar.parameters
  let hasColon := atSymbol ":" (← ahead)
  grammar.declaredBounds? endsAliasBounds
  let hasConditions ← if place == .afterType then pure false else grammar.conditions?
  let hasType ← symbol? "="
  if hasType then
    let _ ← grammar.type true
  unless place == .beforeType || hasConditions do
    let _ ← grammar.conditions?
  symbol ";"
  return ⟨hasColon, hasType⟩

/-- What the call of a macro may start with that stands as an item. -/
def macroFronts : List Front := [
  .name, .word "self", .word "super", .word "crate", .symbol "::"]

/-- Reads the call of a macro as an item; a name may stand in front of its arguments or not. -/
def macroItem (named : Bool) : Parser Unit := do
  let _ ← plainPath
  symbol "!"
  let trees ← ahead
  if named && (atName trees || atWord "try" trees) then take 1
  unless (← macroArguments) == .curly do symbol ";"

/-! ## Items of traits -/

/-- Reads a function of a trait, which may have a body. -/
def traitFunction (grammar : Grammar) : Parser Unit := do
  let _ ← grammar.signature false
  if atGroup .curly (← ahead) then grammar.body
  else unless ← symbol? ";" do failAmong [.group .curly, .symbol ";"]

/-- The words that a function may start with behind the one for constants. -/
def functionWords : List String := ["async", "unsafe", "extern", "fn"]

/-- What may stand in a trait behind the word for constants. -/
def constantFronts : List Front := [.name, .word "_"] ++ functionWords.map .word

/-- Reads an item of a trait. -/
def traitMember (grammar : Grammar) : Parser Unit := do
  let _ ← asIsIf do
    let _ ← grammar.outerAttributes
    let isVisible ← visibility
    let isMarked := (← word? "default") || isVisible
    let trees ← ahead
    let next := trees.drop 1
    if startsFunction false trees
        || (atWord "const" trees && functionWords.any (atWord · next)) then
      grammar.traitFunction
      return isMarked
    else if atWord "const" trees then
      take 1
      unless constantFronts.any (·.starts next) do failAmong constantFronts
      return (← grammar.constantItem).isGeneric || isMarked
    else if atWord "type" trees then
      let _ ← grammar.aliasItem .afterType
      return isMarked
    else if !isMarked && macroFronts.any (·.starts trees) then
      macroItem false
      return false
    else
      failAmong ([.word "fn", .word "const", .word "type"]
        ++ if isMarked then [] else macroFronts)
  return

/-! ## Items of implementations -/

/-- Reads a function that may lack its body. Tells whether it does. -/
def functionItem (grammar : Grammar) : Parser Bool := do
  let _ ← grammar.signature false
  if ← symbol? ";" then return true
  grammar.body
  return false

/-- Reads an item of an implementation. -/
def implementedMember (grammar : Grammar) : Parser Unit := do
  let _ ← asIsIf do
    let _ ← grammar.outerAttributes
    let isVisible ← visibility
    let trees ← ahead
    let isDefault := atWord "default" trees && !atSymbol "!" (trees.drop 1)
    if isDefault then take 1
    let trees ← ahead
    if startsFunction false trees then grammar.functionItem
    else if atWord "const" trees then
      take 1
      let form ← grammar.constantItem
      return !form.hasValue || form.isGeneric
    else if atWord "type" trees then
      let form ← grammar.aliasItem .afterType
      return form.hasColon || !form.hasType
    else if !isVisible && !isDefault && macroFronts.any (·.starts trees) then
      macroItem false
      return false
    else
      failAmong ((if isDefault then [] else [.word "default"])
        ++ [.word "fn", .word "const", .word "type"]
        ++ if isVisible || isDefault then [] else macroFronts)
  return

/-! ## Foreign items -/

/-- Reads a foreign variable. Tells whether it is marked or has a value. -/
def foreignVariable (grammar : Grammar) : Parser Bool := do
  let isMarked := !atWord "static" (← ahead)
  if isMarked then take 1
  word "static"
  let _ ← word? "mut"
  let _ ← name
  symbol ":"
  let _ ← grammar.type true
  let hasValue ← symbol? "="
  if hasValue then
    let _ ← grammar.expression true
  symbol ";"
  return isMarked || hasValue

/-- Whether trees start a foreign variable. -/
def startsForeignVariable (trees : List Tree) : Bool :=
  atWord "static" trees
    || ((atWord "unsafe" trees || atWord "safe" trees) && atWord "static" (trees.drop 1))

/-- Reads a foreign item. -/
def foreignMember (grammar : Grammar) : Parser Unit := do
  let _ ← asIsIf do
    let _ ← grammar.outerAttributes
    let isVisible ← visibility
    let trees ← ahead
    if startsFunction true trees then
      let isSafe ← grammar.signature true
      let hasBody := atGroup .curly (← ahead)
      if hasBody then grammar.body else symbol ";"
      return isSafe || hasBody
    else if startsForeignVariable trees then grammar.foreignVariable
    else if atWord "type" trees then
      let form ← grammar.aliasItem .anywhere
      return form.hasColon || form.hasType
    else if !isVisible && macroFronts.any (·.starts trees) then
      macroItem false
      return false
    else
      failAmong ([.word "fn", .word "static", .word "type"]
        ++ if isVisible then [] else macroFronts)
  return

end Grammar

end ProtoWire.Source
