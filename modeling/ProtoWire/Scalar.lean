import ProtoWire.Reader

/-! # Scalars

The fifteen scalar types of the format with their values, encodings and defaults. Floating-point
numbers are kept as bit patterns, so that a NaN keeps its payload; they are compared as numbers.
-/

namespace ProtoWire

/-- The scalar types. -/
inductive ScalarType where
  | bool
  | double
  | float
  | int32
  | int64
  | uint32
  | uint64
  | sint32
  | sint64
  | fixed32
  | fixed64
  | sfixed32
  | sfixed64
  | string
  | bytes
deriving DecidableEq, Repr

/-- The scalar values; floating-point numbers are given by their bits. -/
inductive Scalar where
  | bool (value : Bool)
  | double (bits : UInt64)
  | float (bits : UInt32)
  | int32 (value : Int32)
  | int64 (value : Int64)
  | uint32 (value : UInt32)
  | uint64 (value : UInt64)
  | sint32 (value : Int32)
  | sint64 (value : Int64)
  | fixed32 (value : UInt32)
  | fixed64 (value : UInt64)
  | sfixed32 (value : Int32)
  | sfixed64 (value : Int64)
  | string (text : String)
  | bytes (payload : Bytes)
deriving DecidableEq, Repr

namespace ScalarType

/-- The wire type of a scalar type. -/
def wireType : ScalarType → WireType
  | .bool | .int32 | .int64 | .uint32 | .uint64 | .sint32 | .sint64 => .varint
  | .double | .fixed64 | .sfixed64 => .i64
  | .float | .fixed32 | .sfixed32 => .i32
  | .string | .bytes => .len

/-- The keyword of a scalar type in a schema file. -/
def keyword : ScalarType → String
  | .bool => "bool"
  | .double => "double"
  | .float => "float"
  | .int32 => "int32"
  | .int64 => "int64"
  | .uint32 => "uint32"
  | .uint64 => "uint64"
  | .sint32 => "sint32"
  | .sint64 => "sint64"
  | .fixed32 => "fixed32"
  | .fixed64 => "fixed64"
  | .sfixed32 => "sfixed32"
  | .sfixed64 => "sfixed64"
  | .string => "string"
  | .bytes => "bytes"

/-- All scalar types. -/
def all : List ScalarType :=
  [.bool, .double, .float, .int32, .int64, .uint32, .uint64, .sint32, .sint64, .fixed32, .fixed64,
    .sfixed32, .sfixed64, .string, .bytes]

/-- Whether a map may have keys of the type: integers, truth values and text. -/
def isMapKey : ScalarType → Bool
  | .double | .float | .bytes => false
  | _ => true

/-- The default value of a scalar type. -/
def zero : ScalarType → Scalar
  | .bool => .bool false
  | .double => .double 0
  | .float => .float 0
  | .int32 => .int32 0
  | .int64 => .int64 0
  | .uint32 => .uint32 0
  | .uint64 => .uint64 0
  | .sint32 => .sint32 0
  | .sint64 => .sint64 0
  | .fixed32 => .fixed32 0
  | .fixed64 => .fixed64 0
  | .sfixed32 => .sfixed32 0
  | .sfixed64 => .sfixed64 0
  | .string => .string ""
  | .bytes => .bytes []

/-- Reads a value of a scalar type. Any varint but 0 is true. -/
def read : ScalarType → ReaderM Scalar
  | .bool => return .bool ((← Reader.readVarint64) != 0)
  | .double => return .double (← Reader.readFixed64)
  | .float => return .float (← Reader.readFixed32)
  | .int32 => return .int32 (← Reader.readVarint32).toInt32
  | .int64 => return .int64 (← Reader.readVarint64).toInt64
  | .uint32 => return .uint32 (← Reader.readVarint32)
  | .uint64 => return .uint64 (← Reader.readVarint64)
  | .sint32 => return .sint32 (Varint.unzigzag32 (← Reader.readVarint32))
  | .sint64 => return .sint64 (Varint.unzigzag64 (← Reader.readVarint64))
  | .fixed32 => return .fixed32 (← Reader.readFixed32)
  | .fixed64 => return .fixed64 (← Reader.readFixed64)
  | .sfixed32 => return .sfixed32 (← Reader.readFixed32).toInt32
  | .sfixed64 => return .sfixed64 (← Reader.readFixed64).toInt64
  | .string => return .string (← Reader.readString)
  | .bytes => return .bytes (← Reader.readBytes)

end ScalarType

namespace FloatBits

/-- Whether the bits are those of zero, of either sign. -/
def isZero32 (bits : UInt32) : Bool := bits % 0x80000000 == 0

/-- Whether the bits are those of zero, of either sign. -/
def isZero64 (bits : UInt64) : Bool := bits % 0x8000000000000000 == 0

/-- Whether the bits are those of a NaN: all exponent bits set and a fraction other than 0. -/
def isNaN32 (bits : UInt32) : Bool := 0x7F800000 < bits % 0x80000000

/-- Whether the bits are those of a NaN: all exponent bits set and a fraction other than 0. -/
def isNaN64 (bits : UInt64) : Bool := 0x7FF0000000000000 < bits % 0x8000000000000000

/-- Equality of numbers: a NaN equals nothing and the two zeros are equal. -/
def equal32 (a b : UInt32) : Bool := !isNaN32 a && (a == b || (isZero32 a && isZero32 b))

/-- Equality of numbers: a NaN equals nothing and the two zeros are equal. -/
def equal64 (a b : UInt64) : Bool := !isNaN64 a && (a == b || (isZero64 a && isZero64 b))

end FloatBits

namespace Scalar

/-- The type of a scalar value. -/
def type : Scalar → ScalarType
  | .bool _ => .bool
  | .double _ => .double
  | .float _ => .float
  | .int32 _ => .int32
  | .int64 _ => .int64
  | .uint32 _ => .uint32
  | .uint64 _ => .uint64
  | .sint32 _ => .sint32
  | .sint64 _ => .sint64
  | .fixed32 _ => .fixed32
  | .fixed64 _ => .fixed64
  | .sfixed32 _ => .sfixed32
  | .sfixed64 _ => .sfixed64
  | .string _ => .string
  | .bytes _ => .bytes

/-- The payload of a scalar value. A negative `int32` is sign-extended to 64 bits. -/
def encode : Scalar → Bytes
  | .bool value => [if value then 1 else 0]
  | .double bits => Bytes.littleEndian 8 bits.toNat
  | .float bits => Bytes.littleEndian 4 bits.toNat
  | .int32 value => Varint.encode (Varint.signExtend value)
  | .int64 value => Varint.encode value.toUInt64
  | .uint32 value => Varint.encode value.toUInt64
  | .uint64 value => Varint.encode value
  | .sint32 value => Varint.encode (Varint.zigzag32 value).toUInt64
  | .sint64 value => Varint.encode (Varint.zigzag64 value)
  | .fixed32 value => Bytes.littleEndian 4 value.toNat
  | .fixed64 value => Bytes.littleEndian 8 value.toNat
  | .sfixed32 value => Bytes.littleEndian 4 value.toUInt32.toNat
  | .sfixed64 value => Bytes.littleEndian 8 value.toUInt64.toNat
  | .string text => Varint.delimited text.toUTF8.data.toList
  | .bytes payload => Varint.delimited payload

/-- The number of bytes of the payload, worked out without writing it. -/
def size : Scalar → Nat
  | .bool _ => 1
  | .double _ | .fixed64 _ | .sfixed64 _ => 8
  | .float _ | .fixed32 _ | .sfixed32 _ => 4
  | .int32 value => Varint.size (Varint.signExtend value)
  | .int64 value => Varint.size value.toUInt64
  | .uint32 value => Varint.size value.toUInt64
  | .uint64 value => Varint.size value
  | .sint32 value => Varint.size (Varint.zigzag32 value).toUInt64
  | .sint64 value => Varint.size (Varint.zigzag64 value)
  | .string text => Varint.delimitedSize text.utf8ByteSize
  | .bytes payload => Varint.delimitedSize payload.length

/-- Whether the value is the default of its type; both zeros of a floating-point type are. -/
def isDefault : Scalar → Bool
  | .bool value => !value
  | .double bits => FloatBits.isZero64 bits
  | .float bits => FloatBits.isZero32 bits
  | .int32 value | .sint32 value | .sfixed32 value => value == 0
  | .int64 value | .sint64 value | .sfixed64 value => value == 0
  | .uint32 value | .fixed32 value => value == 0
  | .uint64 value | .fixed64 value => value == 0
  | .string text => text == ""
  | .bytes payload => payload.isEmpty

/-- Equality of values, floating-point numbers being compared as numbers. -/
def equal : Scalar → Scalar → Bool
  | .double a, .double b => FloatBits.equal64 a b
  | .float a, .float b => FloatBits.equal32 a b
  | a, b => a == b

/-- The order of map keys of one type: numbers by value, false before true, text by code point.
Values of different types are not ordered. -/
def precedes : Scalar → Scalar → Bool
  | .bool a, .bool b => !a && b
  | .int32 a, .int32 b | .sint32 a, .sint32 b | .sfixed32 a, .sfixed32 b => a < b
  | .int64 a, .int64 b | .sint64 a, .sint64 b | .sfixed64 a, .sfixed64 b => a < b
  | .uint32 a, .uint32 b | .fixed32 a, .fixed32 b => a < b
  | .uint64 a, .uint64 b | .fixed64 a, .fixed64 b => a < b
  | .string a, .string b => a < b
  | _, _ => false

end Scalar

end ProtoWire
