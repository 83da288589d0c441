import ProtoWire.Proofs.Conformance
import ProtoWire.Proofs.Payload

/-! # The records of a message

What a message is written as, told without any sizes: the records of its entries in the order of
declaration, then the captured records. Where a payload holds other records, a packed run or text,
its length is not predicted but that of the bytes it is made of.
-/

namespace ProtoWire

/-- The bytes of records, one after the other. -/
def UnknownField.encodeAll (records : List UnknownField) : Bytes := records.flatMap (·.encode)

/-- The payload that a scalar is written as. -/
def Scalar.payload : Scalar → UnknownValue
  | .bool value => .varint (if value then 1 else 0)
  | .double bits => .fixed64 bits
  | .float bits => .fixed32 bits
  | .int32 value => .varint (Varint.signExtend value)
  | .int64 value => .varint value.toUInt64
  | .uint32 value => .varint value.toUInt64
  | .uint64 value => .varint value
  | .sint32 value => .varint (Varint.zigzag32 value).toUInt64
  | .sint64 value => .varint (Varint.zigzag64 value)
  | .fixed32 value => .fixed32 value
  | .fixed64 value => .fixed64 value
  | .sfixed32 value => .fixed32 value.toUInt32
  | .sfixed64 value => .fixed64 value.toUInt64
  | .string text => .lengthDelimited text.toUTF8.data.toList
  | .bytes payload => .lengthDelimited payload

namespace Scalar

theorem encode_payload (scalar : Scalar) : scalar.payload.encode = scalar.encode := by
  cases scalar with
  | bool value => cases value <;> rfl
  | _ => rfl

theorem size_payload (scalar : Scalar) : scalar.payload.size = scalar.size := by
  cases scalar with
  | bool value => cases value <;> rfl
  | string text =>
      simp only [payload, UnknownValue.size, size, Array.length_toList]
      rfl
  | _ => rfl

theorem wireType_payload (scalar : Scalar) : scalar.payload.wireType = scalar.type.wireType := by
  cases scalar <;> rfl

end Scalar

/-- The payload of a map entry: the records of its key and its value. -/
def entryPayload (key value : UnknownValue) : UnknownValue :=
  .lengthDelimited (UnknownField.encodeAll [⟨1, key⟩, ⟨2, value⟩])

mutual

/-- The payload that a value is written as. -/
def Value.payload (catalog : Catalog) : ValueType → Value → UnknownValue
  | .scalar _, .scalar scalar => scalar.payload
  | .enumeration schema, .enumeration value =>
      .varint (Varint.signExtend (schema.number value))
  | .message name, .message message =>
      .lengthDelimited (UnknownField.encodeAll (message.records catalog (catalog.schema name)))
  | .option inner, .present value => value.payload catalog inner
  | .converted _ wire, .reference _ value => value.payload catalog wire
  | _, _ => .lengthDelimited []

/-- Whether a value is left out where defaults are. A message is when it has no records. -/
def Value.isOmitted (catalog : Catalog) : ValueType → Value → Bool
  | .scalar _, .scalar scalar => scalar.isDefault
  | .enumeration schema, .enumeration value => schema.number value == 0
  | .message name, .message message => (message.records catalog (catalog.schema name)).isEmpty
  | .option _, .absent => true
  | .converted _ wire, .reference _ value => value.isOmitted catalog wire
  | _, _ => false

/-- The records that a message is written as. -/
def Message.records (catalog : Catalog) (schema : MessageSchema) : Message → List UnknownField
  | .mk contents unknown _ =>
      contentsRecords catalog schema.dialect schema.entries contents ++ unknown.fields

/-- The records of the contents of entries. -/
def contentsRecords (catalog : Catalog) (dialect : Dialect) :
    List Entry → List Content → List UnknownField
  | entry :: entries, content :: contents =>
      content.records catalog dialect entry ++ contentsRecords catalog dialect entries contents
  | _, _ => []

/-- The records of the content of an entry. -/
def Content.records (catalog : Catalog) (dialect : Dialect) : Entry → Content → List UnknownField
  | .singular _ number type _ nonNull, .singular value =>
      if nonNull || !value.isOmitted catalog type then [⟨number, value.payload catalog type⟩]
      else []
  | .repeated _ number element packed, .repeated values =>
      if values.isEmpty then []
      else if dialect.packs element.fieldType packed then
        [⟨number, .lengthDelimited ((valuePayloads catalog element values).flatMap (·.encode))⟩]
      else (valuePayloads catalog element values).map (⟨number, ·⟩)
  | .map _ number _ type _, .mapping entries =>
      (entryPayloads catalog type entries).map (⟨number, ·⟩)
  | .oneof _ schema _, .chosen place value =>
      match schema.members[place]? with
      | some member => [⟨member.number, value.payload catalog member.type⟩]
      | none => []
  | _, _ => []

/-- The payloads of values. -/
def valuePayloads (catalog : Catalog) (type : ValueType) : List Value → List UnknownValue
  | [] => []
  | value :: values => value.payload catalog type :: valuePayloads catalog type values

/-- The payloads of the entries of a map. -/
def entryPayloads (catalog : Catalog) (type : ValueType) :
    List (Scalar × Value) → List UnknownValue
  | [] => []
  | (key, value) :: entries =>
      entryPayload key.payload (value.payload catalog type) :: entryPayloads catalog type entries

end

/-- The body of a message, made of its records. -/
def Message.body (catalog : Catalog) (schema : MessageSchema) (message : Message) : Bytes :=
  UnknownField.encodeAll (message.records catalog schema)

section Lists

variable (catalog : Catalog) (type : ValueType)

theorem valuePayloads_eq (values : List Value) :
    valuePayloads catalog type values = values.map fun value => value.payload catalog type := by
  induction values with
  | nil => rfl
  | cons value values ih => rw [valuePayloads, ih, List.map_cons]

theorem entryPayloads_eq (entries : List (Scalar × Value)) :
    entryPayloads catalog type entries = entries.map fun entry =>
      entryPayload entry.1.payload (entry.2.payload catalog type) := by
  induction entries with
  | nil => rfl
  | cons entry entries ih => rw [entryPayloads, ih, List.map_cons]

end Lists

end ProtoWire
