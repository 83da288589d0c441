import ProtoWire.Source.Parameter

/-! # Fields

What is declared tells first who may see it. A structure or a variant has fields with names, fields
by position or none; a field without a name may hold fields of its own.
-/

namespace ProtoWire.Source

/-- A field with a name, with what was read of its attributes. -/
structure Field (α : Type) where
  attributes : α
  name : String
  type : TypeText
deriving Repr

/-- The fields of a structure or of a variant. -/
inductive Fields (α : Type) where
  | none
  | positional (types : List TypeText)
  | named (fields : List (Field α))
deriving Repr

namespace Grammar

open Source.Parser

/-- Reads who may see something, if that is told, and whether it is. -/
def visibility : Parser Bool := do
  unless ← word? "pub" do return false
  match ← ahead with
  | .group .round [.word scope] :: _ =>
      if ["crate", "self", "super"].contains scope then take 1
  | .group .round (.word "in" :: _) :: _ =>
      group .round do
        word "in"
        let _ ← plainPath
  | _ => pure ()
  return true

/-! ## Fields -/

/-- Whether trees start fields that stand in place of a type. -/
def startsInnerFields (trees : List Tree) : Bool :=
  atWord "struct" trees || (atWord "union" trees && atGroup .curly (trees.drop 1))

/-- Reads fields that stand in place of a type, as they are. -/
def innerFields (grammar : Grammar) : Parser TypeText := do
  let (_, text) ← capture <| asIs do
    take 1
    group .curly grammar.fields
  write text
  return .plain text

/-- Reads a field with a name, or with the place of one. -/
def namedField (grammar : Grammar) (attributes : Parser α) : Parser (Field α) := do
  let attributes ← attributes
  let _ ← visibility
  let isNameless := atWord "_" (← ahead)
  let name ← if isNameless then anyWord else name
  symbol ":"
  if isNameless && startsInnerFields (← ahead) then
    return ⟨attributes, name, ← grammar.innerFields⟩
  else return ⟨attributes, name, (← grammar.type true).text⟩

/-- Reads fields with names. -/
def namedFields (grammar : Grammar) (attributes : Parser α) : Parser (List (Field α)) :=
  commaSeparated (grammar.namedField attributes)

/-- Reads fields with names and keeps nothing of them. -/
def anyFields (grammar : Grammar) : Parser Unit := do
  let _ ← grammar.namedFields grammar.outerAttributes

/-- Reads a field by its position. -/
def positionalField (grammar : Grammar) (attributes : Parser α) : Parser TypeText := do
  let _ ← attributes
  let _ ← visibility
  return (← grammar.type true).text

/-- Reads the fields of a variant. -/
def variantFields (grammar : Grammar) (attributes : Parser α) : Parser (Fields α) := do
  let trees ← ahead
  if atGroup .curly trees then
    return .named (← group .curly (grammar.namedFields attributes))
  else if atGroup .round trees then
    return .positional
      (← group .round (commaSeparated (grammar.positionalField attributes)))
  else return .none

/-- Reads a variant. Who may see it is not written. -/
def variant (grammar : Grammar) (attributes : Parser α) : Parser (α × String × Fields α) := do
  let attributesRead ← attributes
  let _ ← capture visibility
  let name ← name
  let fields ← grammar.variantFields attributes
  if ← symbol? "=" then
    let _ ← grammar.expression true
  return (attributesRead, name, fields)

/-! ## Bodies of declarations -/

/-- Reads the fields of a structure with the conditions on its parameters, which come behind fields
by position and in front of all else. -/
def structureFields (grammar : Grammar) (attributes : Parser α) : Parser (Fields α) := do
  let hasConditions ← grammar.conditions?
  let trees ← ahead
  if !hasConditions && atGroup .round trees then
    let types ← group .round (commaSeparated (grammar.positionalField attributes))
    let hasConditions ← grammar.conditions?
    unless ← symbol? ";" do
      failAmong ((if hasConditions then [] else [.word "where"]) ++ [.symbol ";"])
    return .positional types
  else if atGroup .curly trees then
    return .named (← group .curly (grammar.namedFields attributes))
  else if ← symbol? ";" then return .none
  else
    failAmong ((if hasConditions then [] else [.word "where", .group .round])
      ++ [.group .curly, .symbol ";"])

/-- Reads the variants of an enumeration, behind the conditions on its parameters. -/
def variants (grammar : Grammar) (attributes : Parser α) :
    Parser (List (α × String × Fields α)) := do
  let _ ← grammar.conditions?
  group .curly (commaSeparated (grammar.variant attributes))

/-- Reads overlapping fields, behind the conditions on their parameters. -/
def overlappingFields (grammar : Grammar) (attributes : Parser α) : Parser (List (Field α)) := do
  let _ ← grammar.conditions?
  group .curly (grammar.namedFields attributes)

end Grammar

end ProtoWire.Source
