import ProtoWire.Scalar

/-! # Field types

A field holds a scalar, an enumeration or a message. The type fixes the wire type and whether a
repeated field may be packed; the dialect of the schema fixes whether it is packed unless told.
-/

namespace ProtoWire

/-- The type of a field. -/
inductive FieldType where
  | scalar (type : ScalarType)
  | enumeration
  | message
deriving DecidableEq, Repr

namespace FieldType

/-- The wire type of a field type. -/
def wireType : FieldType → WireType
  | .scalar type => type.wireType
  | .enumeration => .varint
  | .message => .len

/-- Whether repeated fields of the type may be packed: all types but text, bytes and messages. -/
def isPackable : FieldType → Bool
  | .scalar .string | .scalar .bytes | .message => false
  | .scalar _ | .enumeration => true

/-- The keyword of a field type in a schema file. -/
def keyword : FieldType → String
  | .scalar type => type.keyword
  | .enumeration => "enum"
  | .message => "message"

/-- All field types. -/
def all : List FieldType := ScalarType.all.map .scalar ++ [.enumeration, .message]

/-- The field type with a given keyword. -/
def ofKeyword? (keyword : String) : Option FieldType := all.find? (·.keyword == keyword)

/-- The field type with a given number in a schema descriptor. Groups (10) are not supported. -/
def ofDescriptorNumber (number : Int32) : Except DescriptorError FieldType :=
  match number.toInt with
  | 1 => .ok (.scalar .double)
  | 2 => .ok (.scalar .float)
  | 3 => .ok (.scalar .int64)
  | 4 => .ok (.scalar .uint64)
  | 5 => .ok (.scalar .int32)
  | 6 => .ok (.scalar .fixed64)
  | 7 => .ok (.scalar .fixed32)
  | 8 => .ok (.scalar .bool)
  | 9 => .ok (.scalar .string)
  | 11 => .ok .message
  | 12 => .ok (.scalar .bytes)
  | 13 => .ok (.scalar .uint32)
  | 14 => .ok .enumeration
  | 15 => .ok (.scalar .sfixed32)
  | 16 => .ok (.scalar .sfixed64)
  | 17 => .ok (.scalar .sint32)
  | 18 => .ok (.scalar .sint64)
  | _ => .error (.unsupportedType number)

end FieldType

/-- The dialect a schema is declared in. -/
inductive Dialect where
  | proto2
  | proto3
deriving DecidableEq, Repr

namespace Dialect

/-- The keyword of a dialect. -/
def keyword : Dialect → String
  | .proto2 => "proto2"
  | .proto3 => "proto3"

/-- The dialect with a given keyword. -/
def ofKeyword? (keyword : String) : Option Dialect :=
  [Dialect.proto2, .proto3].find? (·.keyword == keyword)

/-- Whether a repeated field is written packed: as told, or else in proto3 only, and never for a
type that cannot be packed. -/
def packs (dialect : Dialect) (type : FieldType) (explicit : Option Bool) : Bool :=
  type.isPackable && explicit.getD (dialect == .proto3)

end Dialect

end ProtoWire
