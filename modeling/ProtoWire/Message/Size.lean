import ProtoWire.Value

/-! # Sizes of messages

Sizes are worked out before anything is written, entry by entry. A message type that remembers its
size uses what the running encode pass remembered; `settle` gives the message that such a
computation leaves behind, with every size remembered and every reference in its wire form.
-/

namespace ProtoWire

/-- The number of bytes of an enumeration number, which is sign-extended to 64 bits. -/
def enumNumberSize (number : Int32) : Nat := Varint.size (Varint.signExtend number)

/-- The size of a packed run, given the number of elements and the size of their payloads. Elements
of a fixed width are counted, not measured. -/
def packedRunSize (element : ValueType) (count payload : Nat) : Nat :=
  match element.wireType.fixedWidth? with
  | some width => width * count
  | none => payload

/-- The size of a map entry without key and length, given the sizes of its key and value. -/
def mapEntrySize (key value : Nat) : Nat := Tag.keySize 1 + key + (Tag.keySize 2 + value)

mutual

/-- The size of a value, with the length in front where there is one. -/
def Value.size (catalog : Catalog) (pass : Pass) : ValueType → Value → Nat
  | .scalar _, .scalar scalar => scalar.size
  | .enumeration schema, .enumeration value => enumNumberSize (schema.number value)
  | .message name, .message message =>
      Varint.delimitedSize (message.bodySize catalog pass (catalog.schema name))
  | .option inner, .present value => value.size catalog pass inner
  | .converted _ wire, .reference _ value => value.size catalog pass wire
  | _, _ => 0

/-- Whether a value is the default of its type. A message is when its body is empty. -/
def Value.isDefault (catalog : Catalog) (pass : Pass) : ValueType → Value → Bool
  | .scalar _, .scalar scalar => scalar.isDefault
  | .enumeration schema, .enumeration value => schema.number value == 0
  | .message name, .message message => message.bodySize catalog pass (catalog.schema name) == 0
  | .option _, .absent => true
  | .converted _ wire, .reference _ value => value.isDefault catalog pass wire
  | _, _ => false

/-- The size of a message body: the remembered size if there is one, or else the sum of the sizes
of its contents and captured records. -/
def Message.bodySize (catalog : Catalog) (pass : Pass) (schema : MessageSchema) : Message → Nat
  | .mk contents unknown cache =>
      match if schema.cachesSize then cache.find? pass else none with
      | some size => size
      | none => contentsSize catalog pass schema.dialect schema.entries contents + unknown.size

/-- The size of the contents of entries. -/
def contentsSize (catalog : Catalog) (pass : Pass) (dialect : Dialect) :
    List Entry → List Content → Nat
  | entry :: entries, content :: contents =>
      content.size catalog pass dialect entry
        + contentsSize catalog pass dialect entries contents
  | _, _ => 0

/-- The size of the records of one entry. -/
def Content.size (catalog : Catalog) (pass : Pass) (dialect : Dialect) : Entry → Content → Nat
  | .singular _ number type _ nonNull, .singular value =>
      if nonNull || !value.isDefault catalog pass type then
        Tag.keySize number + value.size catalog pass type
      else 0
  | .repeated _ number element packed, .repeated values =>
      if values.isEmpty then 0
      else if dialect.packs element.fieldType packed then
        Tag.keySize number + Varint.delimitedSize
          (packedRunSize element values.length (valuesSize catalog pass element values))
      else values.length * Tag.keySize number + valuesSize catalog pass element values
  | .map _ number _ value _, .mapping entries =>
      mapEntriesSize catalog pass number value entries
  | .oneof _ schema _, .chosen place value =>
      match schema.members[place]? with
      | some member => Tag.keySize member.number + value.size catalog pass member.type
      | none => 0
  | _, _ => 0

/-- The sum of the sizes of values. -/
def valuesSize (catalog : Catalog) (pass : Pass) (type : ValueType) : List Value → Nat
  | [] => 0
  | value :: values => value.size catalog pass type + valuesSize catalog pass type values

/-- The size of the records of a map. -/
def mapEntriesSize (catalog : Catalog) (pass : Pass) (number : UInt32) (type : ValueType) :
    List (Scalar × Value) → Nat
  | [] => 0
  | (key, value) :: entries =>
      Tag.keySize number
        + Varint.delimitedSize (mapEntrySize key.size (value.size catalog pass type))
        + mapEntriesSize catalog pass number type entries

end

mutual

/-- The value left behind when its size is worked out. -/
def Value.settle (catalog : Catalog) (pass : Pass) : ValueType → Value → Value
  | .message name, .message message =>
      .message (message.settle catalog pass (catalog.schema name))
  | .option inner, .present value => .present (value.settle catalog pass inner)
  | .converted _ wire, .reference _ value => .reference .wire (value.settle catalog pass wire)
  | _, value => value

/-- The message left behind when its size is worked out. A remembered size spares the work. -/
def Message.settle (catalog : Catalog) (pass : Pass) (schema : MessageSchema) : Message → Message
  | .mk contents unknown cache =>
      match if schema.cachesSize then cache.find? pass else none with
      | some _ => .mk contents unknown cache
      | none =>
          let settled := settleContents catalog pass schema.entries contents
          let size := contentsSize catalog pass schema.dialect schema.entries settled + unknown.size
          .mk settled unknown (if schema.cachesSize then cache.remember pass size else cache)

/-- The contents left behind when their sizes are worked out. -/
def settleContents (catalog : Catalog) (pass : Pass) :
    List Entry → List Content → List Content
  | entry :: entries, content :: contents =>
      content.settle catalog pass entry :: settleContents catalog pass entries contents
  | _, contents => contents

/-- The content left behind when its size is worked out. -/
def Content.settle (catalog : Catalog) (pass : Pass) : Entry → Content → Content
  | .singular _ _ type _ _, .singular value => .singular (value.settle catalog pass type)
  | .repeated _ _ element _, .repeated values =>
      .repeated (settleValues catalog pass element values)
  | .map _ _ _ type _, .mapping entries => .mapping (settleEntries catalog pass type entries)
  | .oneof _ schema _, .chosen place value =>
      match schema.members[place]? with
      | some member => .chosen place (value.settle catalog pass member.type)
      | none => .chosen place value
  | _, content => content

/-- The values left behind when their sizes are worked out. -/
def settleValues (catalog : Catalog) (pass : Pass) (type : ValueType) : List Value → List Value
  | [] => []
  | value :: values =>
      value.settle catalog pass type :: settleValues catalog pass type values

/-- The entries of a map left behind when their sizes are worked out. -/
def settleEntries (catalog : Catalog) (pass : Pass) (type : ValueType) :
    List (Scalar × Value) → List (Scalar × Value)
  | [] => []
  | (key, value) :: entries =>
      (key, value.settle catalog pass type) :: settleEntries catalog pass type entries

end

end ProtoWire
