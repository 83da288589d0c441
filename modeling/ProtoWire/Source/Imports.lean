import ProtoWire.Source.Field

/-! # Imports

Names are brought into scope from paths that branch: behind a path stands a name, perhaps with
another to go by, all names that there are, or a list of further paths.
-/

namespace ProtoWire.Source.Grammar

open Source.Parser

/-- What a path for imports may go on with. -/
def importFronts : List Front := [
  .name, .word "self", .word "super", .word "crate", .word "try", .symbol "*", .group .curly]

/-- Reads the name that something goes by, or the place of one. -/
def newName : Parser Unit := do
  let trees ← ahead
  if atName trees || atWord "_" trees then take 1
  else fail (.expected "identifier or underscore")

/-- Reads a list of paths, each of which may start anew at the root or not. Tells whether one
does. -/
def importList (grammar : Grammar) (mayRestart : Bool) : Parser Bool := do
  let restarts ← commaSeparated do
    let restartsHere ← if mayRestart then symbol? "::" else pure false
    let restartsBehind ← grammar.imports (mayRestart && !restartsHere)
    return restartsHere || restartsBehind
  return restarts.contains true

/-- Reads what is brought into scope behind a path, where a path in a list may start anew at the
root or not. Tells whether one does. -/
def anyImports (grammar : Grammar) (mayRestart : Bool) : Parser Bool := do
  let trees ← ahead
  if atSymbol "*" trees then
    take 1
    return false
  else if atGroup .curly trees then group .curly (grammar.importList mayRestart)
  else if importFronts.any (·.starts trees) then
    take 1
    if ← symbol? "::" then
      let _ ← grammar.imports false
    else if ← word? "as" then newName
    return false
  else failAmong importFronts

/-- Reads imports from their first word on. Tells whether a path in a list starts anew at the
root. -/
def importItem (grammar : Grammar) : Parser Bool := do
  word "use"
  let isRooted ← symbol? "::"
  let restarts ← grammar.imports !isRooted
  symbol ";"
  return restarts

end ProtoWire.Source.Grammar
