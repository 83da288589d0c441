import ProtoWire.Json.Value
import ProtoWire.Primitive

/-! # Primitive values as JSON

A primitive value is the document of the number or scalar it holds; which of them is read depends
on its kind.
-/

namespace ProtoWire

/-- The kind of primitive value with a given keyword. -/
def PrimitiveType.ofKeyword? (keyword : String) : Option PrimitiveType :=
  match keyword with
  | "varint32" => some .varint32
  | "varint64" => some .varint64
  | "length" => some .length
  | "tag" => some .tag
  | "enum" => some .enumNumber
  | _ => (ScalarType.all.find? (·.keyword == keyword)).map .scalar

/-- The document of a primitive value. -/
def Primitive.toJson : Primitive → Json
  | .varint32 value => .nat value.toNat
  | .varint64 value => .natText value.toNat
  | .length value => .natText value
  | .tag value => .nat value.toNat
  | .enumNumber value => .number value.toInt
  | .scalar value => value.toJson

/-- Reads a primitive value of some kind. -/
def PrimitiveType.ofJson (type : PrimitiveType) (json : Json) : JsonResult Primitive :=
  match type with
  | .varint32 => return .varint32 (← json.asUInt32)
  | .varint64 => return .varint64 (← json.asUInt64)
  | .length => return .length (← json.asNat)
  | .tag => return .tag (← json.asUInt32)
  | .enumNumber => return .enumNumber (← json.asInt32)
  | .scalar type => return .scalar (← type.ofJson json)

end ProtoWire
