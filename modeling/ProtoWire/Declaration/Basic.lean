import ProtoWire.Source.Attribute
import ProtoWire.Source.Lexer

/-! # Declarations

A declared type has a name, generic parameters, attributes and a body: named fields, positions,
nothing, overlapping fields or variants. Messages, oneofs and enumerations are declared this way,
with attributes under one keyword.
-/

namespace ProtoWire.Declaration

open Source (Attribute TypeText)

/-- The keyword of the attributes that are read. -/
def keyword : String := "proto"

/-- Whether an attribute has the keyword. -/
def isRead (found : Attribute) : Bool := found.keyword.isName keyword

/-- An identifier; a raw one is marked, so that it may be a keyword. -/
structure Identifier where
  isRaw : Bool
  name : String
deriving DecidableEq, Repr

namespace Identifier

/-- Reads an identifier. -/
def ofString (text : String) : Identifier :=
  match text.toList with
  | 'r' :: '#' :: name => ⟨true, String.ofList name⟩
  | _ => ⟨false, text⟩

/-- The identifier as it is written. -/
def text (identifier : Identifier) : String :=
  if identifier.isRaw then "r#" ++ identifier.name else identifier.name

end Identifier

/-- A named field. -/
structure NamedField where
  name : Identifier
  type : TypeText
  attributes : List Attribute
deriving Repr

/-- What a variant holds. -/
inductive VariantShape where
  | unit
  | positional (types : List TypeText)
  | named
deriving Repr

/-- The only type that a variant holds, if it is positional. -/
def VariantShape.single? : VariantShape → Option TypeText
  | .positional [type] => some type
  | _ => none

/-- A variant. -/
structure Variant where
  name : Identifier
  shape : VariantShape
  attributes : List Attribute
deriving Repr

/-- The body of a declaration. -/
inductive Body where
  | named (fields : List NamedField)
  | positional
  | unit
  | overlapping
  | variants (variants : List Variant)
deriving Repr

end Declaration

/-- A declaration. -/
structure Declaration where
  name : Declaration.Identifier
  /-- Whether there are generic parameters. -/
  isGeneric : Bool
  attributes : List Source.Attribute
  body : Declaration.Body
deriving Repr

end ProtoWire
