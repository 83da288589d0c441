import ProtoWire.Tag

/-! # Unknown fields

A record whose field a message does not declare is kept as it is framed, in the order of capture,
and written back after the declared fields. A number may occur more than once.
-/

namespace ProtoWire

/-- The payload of an undeclared field. -/
inductive UnknownValue where
  | varint (value : UInt64)
  | fixed32 (value : UInt32)
  | fixed64 (value : UInt64)
  | lengthDelimited (payload : Bytes)
deriving DecidableEq, Repr

namespace UnknownValue

/-- The wire type the payload was framed with. -/
def wireType : UnknownValue → WireType
  | .varint _ => .varint
  | .fixed32 _ => .i32
  | .fixed64 _ => .i64
  | .lengthDelimited _ => .len

/-- The bytes of the payload, with the length in front where there is one. -/
def encode : UnknownValue → Bytes
  | .varint value => Varint.encode value
  | .fixed32 value => Bytes.littleEndian 4 value.toNat
  | .fixed64 value => Bytes.littleEndian 8 value.toNat
  | .lengthDelimited payload => Varint.delimited payload

/-- The number of bytes of the payload. -/
def size : UnknownValue → Nat
  | .varint value => Varint.size value
  | .fixed32 _ => 4
  | .fixed64 _ => 8
  | .lengthDelimited payload => Varint.delimitedSize payload.length

end UnknownValue

/-- One captured record. -/
structure UnknownField where
  number : UInt32
  value : UnknownValue
deriving DecidableEq, Repr

namespace UnknownField

/-- Key and payload. -/
def encode (field : UnknownField) : Bytes :=
  Tag.encodeKey field.number field.value.wireType ++ field.value.encode

/-- The number of bytes of key and payload. -/
def size (field : UnknownField) : Nat := Tag.keySize field.number + field.value.size

end UnknownField

/-- The captured records of one message, in the order of capture. -/
structure UnknownFieldSet where
  fields : List UnknownField
deriving DecidableEq, Repr

namespace UnknownFieldSet

/-- The set without fields. -/
def empty : UnknownFieldSet := ⟨[]⟩

/-- The set with one more field, captured last. -/
def add (set : UnknownFieldSet) (field : UnknownField) : UnknownFieldSet :=
  ⟨set.fields ++ [field]⟩

/-- The set that captures the given fields one by one. -/
def ofList (fields : List UnknownField) : UnknownFieldSet := ⟨fields⟩

/-- The number of captured fields. -/
def length (set : UnknownFieldSet) : Nat := set.fields.length

/-- Whether nothing was captured. -/
def isEmpty (set : UnknownFieldSet) : Bool := set.fields.isEmpty

/-- All values captured for a number, in the order of capture. -/
def get (set : UnknownFieldSet) (number : UInt32) : List UnknownValue :=
  (set.fields.filter (·.number == number)).map (·.value)

/-- The captured numbers, each once, in the order of first appearance. -/
def numbers (set : UnknownFieldSet) : List UInt32 :=
  set.fields.foldl (fun seen field =>
    if seen.contains field.number then seen else seen ++ [field.number]) []

/-- All fields written in the order of capture. -/
def encode (set : UnknownFieldSet) : Bytes := set.fields.flatMap (·.encode)

/-- The number of bytes of all fields. -/
def size (set : UnknownFieldSet) : Nat := set.fields.foldr (fun field rest => field.size + rest) 0

end UnknownFieldSet

end ProtoWire
