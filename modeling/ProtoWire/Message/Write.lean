import ProtoWire.Message.Size

/-! # Writing messages

A message body is the records of its entries in order of declaration, then the captured records.
Every length is written before the bytes it counts and taken from the size computed beforehand, in
the pass that is running; lengths are never patched.
-/

namespace ProtoWire

/-- The payload of an enumeration number. -/
def encodeEnumNumber (number : Int32) : Bytes := Varint.encode (Varint.signExtend number)

/-- The bytes of a length. -/
def encodeLength (length : Nat) : Bytes := Varint.encode (UInt64.ofNat length)

mutual

/-- The payload of a value, with its length in front where there is one. -/
def Value.write (catalog : Catalog) (pass : Pass) : ValueType → Value → Bytes
  | .scalar _, .scalar scalar => scalar.encode
  | .enumeration schema, .enumeration value => encodeEnumNumber (schema.number value)
  | .message name, .message message =>
      encodeLength (message.bodySize catalog pass (catalog.schema name))
        ++ message.writeBody catalog pass (catalog.schema name)
  | .option inner, .present value => value.write catalog pass inner
  | .converted _ wire, .reference _ value => value.write catalog pass wire
  | _, _ => []

/-- The body of a message. -/
def Message.writeBody (catalog : Catalog) (pass : Pass) (schema : MessageSchema) :
    Message → Bytes
  | .mk contents unknown _ =>
      writeContents catalog pass schema.dialect schema.entries contents ++ unknown.encode

/-- The records of entries. -/
def writeContents (catalog : Catalog) (pass : Pass) (dialect : Dialect) :
    List Entry → List Content → Bytes
  | entry :: entries, content :: contents =>
      content.write catalog pass dialect entry
        ++ writeContents catalog pass dialect entries contents
  | _, _ => []

/-- The records of one entry. -/
def Content.write (catalog : Catalog) (pass : Pass) (dialect : Dialect) : Entry → Content → Bytes
  | .singular _ number type _ nonNull, .singular value =>
      if nonNull || !value.isDefault catalog pass type then
        Tag.encodeKey number type.wireType ++ value.write catalog pass type
      else []
  | .repeated _ number element packed, .repeated values =>
      if values.isEmpty then []
      else if dialect.packs element.fieldType packed then
        Tag.encodeKey number .len
          ++ (encodeLength
                (packedRunSize element values.length (valuesSize catalog pass element values))
              ++ writePayloads catalog pass element values)
      else writeElements catalog pass number element values
  | .map _ number _ value _, .mapping entries =>
      writeMapEntries catalog pass number value entries
  | .oneof _ schema _, .chosen place value =>
      match schema.members[place]? with
      | some member =>
          Tag.encodeKey member.number member.type.wireType
            ++ value.write catalog pass member.type
      | none => []
  | _, _ => []

/-- The payloads of values, one after the other. -/
def writePayloads (catalog : Catalog) (pass : Pass) (type : ValueType) : List Value → Bytes
  | [] => []
  | value :: values =>
      value.write catalog pass type ++ writePayloads catalog pass type values

/-- A record for each value. -/
def writeElements (catalog : Catalog) (pass : Pass) (number : UInt32) (type : ValueType) :
    List Value → Bytes
  | [] => []
  | value :: values =>
      Tag.encodeKey number type.wireType
        ++ (value.write catalog pass type ++ writeElements catalog pass number type values)

/-- A record for each entry of a map; key and value are always written. -/
def writeMapEntries (catalog : Catalog) (pass : Pass) (number : UInt32) (type : ValueType) :
    List (Scalar × Value) → Bytes
  | [] => []
  | (key, value) :: entries =>
      Tag.encodeKey number .len
        ++ (encodeLength (mapEntrySize key.size (value.size catalog pass type))
        ++ (Tag.encodeKey 1 key.type.wireType ++ key.encode
        ++ (Tag.encodeKey 2 type.wireType ++ value.write catalog pass type
        ++ writeMapEntries catalog pass number type entries)))

end

end ProtoWire
