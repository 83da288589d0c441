import ProtoWire.Declaration.Basic

/-! # Reading declarations

A declaration is read from its source text. Visibility, the bounds of parameters and the numbers of
variants are passed over.
-/

namespace ProtoWire.Declaration

open Source (Attribute Fields Grammar Parser)
open Source.Parser

/-- Reads the attributes in front of something. -/
def attributeList (grammar : Grammar) : Parser (List Attribute) := do
  let mut found := #[]
  for _ in ← turns do
    unless ← symbol? "#" do break
    found := found.push (← group .square grammar.anyAttribute)
  return found.toList

/-- A field as it was read. -/
def NamedField.ofField (field : Source.Field (List Attribute)) : NamedField :=
  ⟨.ofString field.name, field.type, field.attributes⟩

/-- What a variant holds, from its fields. -/
def VariantShape.ofFields : Fields (List Attribute) → VariantShape
  | .none => .unit
  | .positional types => .positional types
  | .named _ => .named

/-- A variant as it was read. -/
def Variant.ofParts : List Attribute × String × Fields (List Attribute) → Variant
  | (attributes, name, fields) => ⟨.ofString name, .ofFields fields, attributes⟩

/-- The body of a structure, from its fields. -/
def Body.ofFields : Fields (List Attribute) → Body
  | .none => .unit
  | .positional _ => .positional
  | .named fields => .named (fields.map .ofField)

/-- Reads the body of a declaration of some kind. -/
def bodyOfKind (grammar : Grammar) (kind : String) : Parser Body := do
  let attributes := attributeList grammar
  match kind with
  | "struct" => return .ofFields (← grammar.structureFields attributes)
  | "enum" => return .variants ((← grammar.variants attributes).map .ofParts)
  | _ =>
      let _ ← grammar.overlappingFields attributes
      return .overlapping

/-- The words for the kinds of declarations. -/
def kinds : List String := ["struct", "enum", "union"]

/-- Reads a declaration. -/
def declaration (grammar : Grammar) : Parser Declaration := do
  let attributes ← attributeList grammar
  let _ ← Grammar.visibility
  unless kinds.any (Source.atWord · (← ahead)) do failAmong (kinds.map .word)
  let kind ← anyWord
  let name ← Parser.name
  let (isGeneric, _) ← grammar.parameters
  return { name := .ofString name, isGeneric, attributes, body := ← bodyOfKind grammar kind }

/-- Reads a declaration from its source text. -/
def ofText? (text : String) : Option Declaration := do
  let trees ← Source.trees? text
  (readAll (declaration (.forTrees trees)) trees).toOption

end ProtoWire.Declaration
