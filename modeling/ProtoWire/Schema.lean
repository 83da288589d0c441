import ProtoWire.Descriptor

/-! # Message types

A message type is its entries in order of declaration. The type of a value is a scalar, an
enumeration, a message type referred to by name, an optional value or a value behind a converter.
A catalog resolves the names.
-/

namespace ProtoWire

/-- A declared value of an enumeration. -/
structure EnumVariant where
  name : String
  number : Int32
deriving DecidableEq, Repr

/-- An open enumeration: numbers without a variant are kept as they are. -/
structure EnumSchema where
  name : String
  variants : List EnumVariant
deriving DecidableEq, Repr

/-- A value of an enumeration: a declared variant by its place, or any number. -/
inductive EnumValue where
  | variant (index : Nat)
  | unrecognized (number : Int32)
deriving DecidableEq, Repr

namespace EnumSchema

/-- The first variant declared with the number, or else the number itself. -/
def ofNumber (schema : EnumSchema) (number : Int32) : EnumValue :=
  match schema.variants.findIdx? (·.number == number) with
  | some index => .variant index
  | none => .unrecognized number

/-- The number of a value. -/
def number (schema : EnumSchema) : EnumValue → Int32
  | .variant index => (schema.variants[index]?.map (·.number)).getD 0
  | .unrecognized number => number

/-- The value named by a declared variant. -/
def ofName? (schema : EnumSchema) (name : String) : Option EnumValue :=
  (schema.variants.findIdx? (·.name == name)).map .variant

/-- The name of a value, when it is a declared variant. -/
def name? (schema : EnumSchema) : EnumValue → Option String
  | .variant index => schema.variants[index]?.map (·.name)
  | .unrecognized _ => none

/-- The default value of an enumeration. -/
def zero (schema : EnumSchema) : EnumValue := schema.ofNumber 0

end EnumSchema

/-- Whether a value is a declared variant. -/
def EnumValue.isRecognized : EnumValue → Bool
  | .variant _ => true
  | .unrecognized _ => false

/-- The type of a value. -/
inductive ValueType where
  | scalar (type : ScalarType)
  | enumeration (schema : EnumSchema)
  /-- A message type, by its name in the catalog. -/
  | message (name : String)
  /-- A value that may be absent. -/
  | option (inner : ValueType)
  /-- A value kept in its wire form or in the domain form of the named converter. -/
  | converted (converter : String) (wire : ValueType)
deriving DecidableEq, Repr

namespace ValueType

/-- The field type of a value type. -/
def fieldType : ValueType → FieldType
  | .scalar type => .scalar type
  | .enumeration _ => .enumeration
  | .message _ => .message
  | .option inner => inner.fieldType
  | .converted _ wire => wire.fieldType

/-- The wire type of a value type. -/
def wireType : ValueType → WireType
  | .scalar type => type.wireType
  | .enumeration _ => .varint
  | .message _ => .len
  | .option inner => inner.wireType
  | .converted _ wire => wire.wireType

/-- Whether values of the type go through a converter. -/
def isWrapped : ValueType → Bool
  | .scalar _ | .enumeration _ | .message _ => false
  | .option inner => inner.isWrapped
  | .converted _ _ => true

end ValueType

/-- A member of a oneof. -/
structure Member where
  name : String
  number : UInt32
  type : ValueType
deriving DecidableEq, Repr

namespace Member

/-- The tag a member is written with and read under. -/
def tag (member : Member) : UInt32 := Tag.make member.number member.type.wireType

/-- The descriptor of a member. -/
def descriptor (member : Member) : StandardField where
  number := member.number
  name := member.name
  type := member.type.fieldType
  wrapped := member.type.isWrapped

end Member

/-- A oneof: members that share one slot. -/
structure OneofSchema where
  name : String
  members : List Member
deriving DecidableEq, Repr

namespace OneofSchema

/-- The place of the first member read under a tag. -/
def memberFor? (schema : OneofSchema) (tag : UInt32) : Option Nat :=
  schema.members.findIdx? (·.tag == tag)

/-- The descriptors of the members. -/
def descriptors (schema : OneofSchema) : List StandardField :=
  schema.members.map (·.descriptor)

end OneofSchema

/-- The order in which the entries of a map are written. -/
inductive MapOrder where
  | byKey
  | unspecified
deriving DecidableEq, Repr

/-- An entry of a message type. -/
inductive Entry where
  /-- One value. Unless `nonNull`, a default value is not written and an absent one is read as
  the default. -/
  | singular (name : String) (number : UInt32) (type : ValueType) (optional nonNull : Bool)
  | repeated (name : String) (number : UInt32) (element : ValueType) (packed : Option Bool)
  | map (name : String) (number : UInt32) (key : ScalarType) (value : ValueType) (order : MapOrder)
  | oneof (name : String) (schema : OneofSchema) (required : Bool)
deriving DecidableEq, Repr

namespace Entry

/-- The name of an entry. -/
def name : Entry → String
  | .singular name .. | .repeated name .. | .map name .. | .oneof name .. => name

/-- Whether an entry is a field, not a oneof. -/
def isField : Entry → Bool
  | .oneof .. => false
  | _ => true

/-- Whether an entry takes the records with a given tag. -/
def accepts (tag : UInt32) : Entry → Bool
  | .singular _ number type _ _ => tag == Tag.make number type.wireType
  | .repeated _ number element _ =>
      tag == Tag.make number element.wireType || tag == Tag.make number .len
  | .map _ number _ _ _ => tag == Tag.make number .len
  | .oneof _ schema _ => (schema.memberFor? tag).isSome

/-- The descriptor of an entry. -/
def descriptor (dialect : Dialect) : Entry → EntryDescriptor
  | .singular name number type optional nonNull => .standard
      { number, name, type := type.fieldType, optional, nonNull, wrapped := type.isWrapped }
  | .repeated name number element packed => .standard
      { number, name, type := element.fieldType, repeated := true
        packed := dialect.packs element.fieldType packed, wrapped := element.isWrapped }
  | .map name number _ _ _ => .standard
      { number, name, type := .message, repeated := true, map := true }
  | .oneof name schema required => .oneof { name, members := schema.descriptors, required }

end Entry

/-- A message type. -/
structure MessageSchema where
  /-- The name in the descriptor. -/
  name : String
  dialect : Dialect := .proto3
  entries : List Entry
  /-- The name of the field that keeps undeclared records; without one they are skipped. -/
  unknownField : Option String := none
  /-- The name of the field that remembers the encoded size, if there is one. -/
  sizeField : Option String := none
deriving DecidableEq, Repr

namespace MessageSchema

/-- The descriptor of a message type. -/
def descriptor (schema : MessageSchema) : MessageDescriptor where
  name := schema.name
  dialect := schema.dialect
  entries := schema.entries.map (·.descriptor schema.dialect)

/-- Whether undeclared records are kept. -/
def keepsUnknown (schema : MessageSchema) : Bool := schema.unknownField.isSome

/-- Whether the encoded size is remembered. -/
def cachesSize (schema : MessageSchema) : Bool := schema.sizeField.isSome

/-- The place of the entry that takes the records with a given tag: the first such field, or else
the first such oneof. -/
def entryFor? (schema : MessageSchema) (tag : UInt32) : Option Nat :=
  match schema.entries.findIdx? (fun entry => entry.isField && entry.accepts tag) with
  | some index => some index
  | none => schema.entries.findIdx? (fun entry => !entry.isField && entry.accepts tag)

/-- Whether the entries of some map may be written in any order. -/
def hasUnorderedMap (schema : MessageSchema) : Bool :=
  schema.entries.any fun
    | .map _ _ _ _ .unspecified => true
    | _ => false

end MessageSchema

/-- Message types by name. -/
structure Catalog where
  messages : List (String × MessageSchema)
deriving DecidableEq, Repr

/-- The message type with a given name; a name that is not listed means a type without fields. -/
def Catalog.schema (catalog : Catalog) (name : String) : MessageSchema :=
  (catalog.messages.lookup name).getD { name, entries := [] }

end ProtoWire
