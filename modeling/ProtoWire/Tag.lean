import ProtoWire.Varint

/-! # Field keys

Every record on the wire starts with a tag, the varint of eight times the field number plus the
wire type. The wire type tells how long the payload is, whatever the field means.
-/

namespace ProtoWire

/-- How a payload is framed. -/
inductive WireType where
  | varint
  | i64
  | len
  | i32
deriving DecidableEq, Repr

namespace WireType

/-- The number of a wire type in a tag. -/
def value : WireType → UInt8
  | .varint => 0
  | .i64 => 1
  | .len => 2
  | .i32 => 5

/-- The wire type with a given number. Groups (3 and 4) are known but not supported. -/
def ofValue (value : UInt32) : Except DecodeError WireType :=
  if value = 0 then .ok .varint
  else if value = 1 then .ok .i64
  else if value = 2 then .ok .len
  else if value = 5 then .ok .i32
  else if value = 3 ∨ value = 4 then .error (.unsupportedWireType value.toUInt8)
  else .error (.invalidWireType (UInt8.ofNat (min value.toNat 255)))

/-- The wire type numbered by a byte. -/
def ofByte (value : UInt8) : Except DecodeError WireType := ofValue value.toUInt32

/-- The payload width in bytes, for the wire types that fix it. -/
def fixedWidth? : WireType → Option Nat
  | .i32 => some 4
  | .i64 => some 8
  | .varint | .len => none

end WireType

/-- What a tag says about the record after it. -/
structure FieldKey where
  number : UInt32
  wireType : WireType
deriving DecidableEq, Repr

namespace Tag

/-- The least field number. -/
def minimumNumber : UInt32 := 1

/-- The greatest field number. -/
def maximumNumber : UInt32 := 536870911

/-- Whether a number is kept for the format's own use. -/
def isReserved (number : UInt32) : Bool := 19000 ≤ number && number ≤ 19999

/-- Whether a field may carry the number, reserved ones included. -/
def inRange (number : UInt32) : Bool := minimumNumber ≤ number && number ≤ maximumNumber

/-- The tag of a field. Numbers from 2^29 on lose their high bits. -/
def make (number : UInt32) (wireType : WireType) : UInt32 := number * 8 + wireType.value.toUInt32

/-- The field number in a tag. -/
def fieldNumber (tag : UInt32) : UInt32 := tag / 8

/-- Splits a tag into field number and wire type; number 0 and undefined wire types are
refused. -/
def split (tag : UInt32) : Except DecodeError FieldKey :=
  if fieldNumber tag < minimumNumber then .error (.invalidFieldNumber (fieldNumber tag))
  else (WireType.ofValue (tag % 8)).map fun wireType => ⟨fieldNumber tag, wireType⟩

/-- The bytes of a tag. -/
def encode (tag : UInt32) : Bytes := Varint.encode tag.toUInt64

/-- The bytes of the key of a field. -/
def encodeKey (number : UInt32) (wireType : WireType) : Bytes := encode (make number wireType)

/-- The number of bytes in the key of a field, which the wire type never changes. -/
def keySize (number : UInt32) : Nat := Varint.size (number.toUInt64 * 8)

/-- Reads a key from pieces, keeping the low 32 bits of its varint. -/
def decodeKey (chunks : Chunks) : Except DecodeError FieldKey × Chunks :=
  if chunks.remaining = 0 then (.error (.truncated 1 0), chunks)
  else
    let (tag, rest) := Varint.decodeChunks32 chunks
    (tag.bind split, rest)

end Tag

end ProtoWire
