import ProtoWire.Scalar

/-! # Primitive values

What can be written and read on its own, one value after the other: words as varints, lengths,
tags, enumeration numbers and scalars. Each value knows the reader that reads it back.
-/

namespace ProtoWire

/-- The kinds of primitive values. -/
inductive PrimitiveType where
  | varint32
  | varint64
  | length
  | tag
  | enumNumber
  | scalar (type : ScalarType)
deriving DecidableEq, Repr

/-- A primitive value. -/
inductive Primitive where
  | varint32 (value : UInt32)
  | varint64 (value : UInt64)
  | length (value : Nat)
  | tag (value : UInt32)
  | enumNumber (value : Int32)
  | scalar (value : Scalar)
deriving DecidableEq, Repr

/-- Reads a primitive value of some kind. -/
def PrimitiveType.read : PrimitiveType → ReaderM Primitive
  | .varint32 => return .varint32 (← Reader.readVarint32)
  | .varint64 => return .varint64 (← Reader.readVarint64)
  | .length => return .length (← Reader.readLength)
  | .tag => return .tag (← Reader.readTag)
  | .enumNumber => return .enumNumber (← Reader.readVarint32).toInt32
  | .scalar type => return .scalar (← type.read)

namespace Primitive

/-- The kind of a primitive value. -/
def type : Primitive → PrimitiveType
  | .varint32 _ => .varint32
  | .varint64 _ => .varint64
  | .length _ => .length
  | .tag _ => .tag
  | .enumNumber _ => .enumNumber
  | .scalar value => .scalar value.type

/-- The bytes of a primitive value. -/
def encode : Primitive → Bytes
  | .varint32 value => Varint.encode value.toUInt64
  | .varint64 value => Varint.encode value
  | .length value => Varint.encode (UInt64.ofNat value)
  | .tag value => Tag.encode value
  | .enumNumber value => Varint.encode (Varint.signExtend value)
  | .scalar value => value.encode

end Primitive

end ProtoWire
