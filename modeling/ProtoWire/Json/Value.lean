import ProtoWire.Converter
import ProtoWire.Json.Basic

/-! # Messages as JSON

A message is an object with a member for every entry. Numbers of 64 bits are text, floating-point
numbers are their bits and byte strings are hexadecimal. On reading, an absent member stands for
the default; a converted value may also be given in its domain form.
-/

namespace ProtoWire

/-! ## Scalars -/

/-- The document of a scalar. -/
def Scalar.toJson : Scalar → Json
  | .bool value => .bool value
  | .double bits => .text (Hex.ofNat 16 bits.toNat)
  | .float bits => .text (Hex.ofNat 8 bits.toNat)
  | .int32 value | .sint32 value | .sfixed32 value => .number value.toInt
  | .int64 value | .sint64 value | .sfixed64 value => .text (toString value.toInt)
  | .uint32 value | .fixed32 value => .nat value.toNat
  | .uint64 value | .fixed64 value => .natText value.toNat
  | .string value => .text value
  | .bytes payload => .hex payload

/-- Reads a scalar of a given type; `null` is the zero of the type. -/
def ScalarType.ofJson (type : ScalarType) (json : Json) : JsonResult Scalar :=
  match json with
  | .null => .ok type.zero
  | _ =>
      match type with
      | .bool => return .bool (← json.asBool)
      | .double => return .double (UInt64.ofNat (← json.asHexNat))
      | .float => return .float (UInt32.ofNat (← json.asHexNat))
      | .int32 => return .int32 (← json.asInt32)
      | .int64 => return .int64 (← json.asInt64)
      | .uint32 => return .uint32 (← json.asUInt32)
      | .uint64 => return .uint64 (← json.asUInt64)
      | .sint32 => return .sint32 (← json.asInt32)
      | .sint64 => return .sint64 (← json.asInt64)
      | .fixed32 => return .fixed32 (← json.asUInt32)
      | .fixed64 => return .fixed64 (← json.asUInt64)
      | .sfixed32 => return .sfixed32 (← json.asInt32)
      | .sfixed64 => return .sfixed64 (← json.asInt64)
      | .string => return .string (← json.asText)
      | .bytes => return .bytes (← json.asBytes)

/-! ## Enumerations -/

namespace EnumSchema

/-- A declared variant is its name, another number an object. -/
def valueToJson (schema : EnumSchema) (value : EnumValue) : Json :=
  match schema.name? value with
  | some name => .text name
  | none => .object [("unrecognized", .number (schema.number value).toInt)]

/-- Reads a variant by its name, a number as it is received, or a number that is not recognized
whether a variant carries it or not. -/
def valueOfJson (schema : EnumSchema) (json : Json) : JsonResult EnumValue :=
  match json with
  | .text name =>
      match schema.ofName? name with
      | some value => .ok value
      | none => .error (.expected "variant")
  | .number _ => return schema.ofNumber (← json.asInt32)
  | _ => return .unrecognized (← (json.get "unrecognized").asInt32)

end EnumSchema

/-! ## Unknown fields -/

namespace UnknownValue

/-- The member that shows a payload. -/
def toMember : UnknownValue → String × Json
  | .varint value => ("varint", .natText value.toNat)
  | .fixed32 value => ("fixed32", .nat value.toNat)
  | .fixed64 value => ("fixed64", .natText value.toNat)
  | .lengthDelimited payload => ("bytes", .hex payload)

/-- Reads a payload from the member that is there for it. -/
def ofJson (json : Json) : JsonResult UnknownValue := do
  if json.has "varint" then return .varint (← (json.get "varint").asUInt64)
  if json.has "fixed32" then return .fixed32 (← (json.get "fixed32").asUInt32)
  if json.has "fixed64" then return .fixed64 (← (json.get "fixed64").asUInt64)
  return .lengthDelimited (← (json.get "bytes").asBytes)

end UnknownValue

/-- The document of a captured record. -/
def UnknownField.toJson (field : UnknownField) : Json :=
  .object [("number", .nat field.number.toNat), field.value.toMember]

/-- Reads a captured record. -/
def UnknownField.ofJson (json : Json) : JsonResult UnknownField :=
  return ⟨← (json.get "number").asUInt32, ← UnknownValue.ofJson json⟩

/-- The records of a set in the order of capture. -/
def UnknownFieldSet.toJson (set : UnknownFieldSet) : Json :=
  .list (set.fields.map (·.toJson))

/-- Reads records and captures them one by one. -/
def UnknownFieldSet.ofItems (items : List Json) : JsonResult UnknownFieldSet := do
  return (← items.mapM UnknownField.ofJson).foldl (·.add ·) .empty

/-! ## Domain values -/

/-- Reads the domain value of a converter from the octets of its wire form. -/
def Converter.ofOctets (converter : Converter Bytes D) (json : Json) : JsonResult D := do
  match converter.wrap (← json.asBytes) with
  | .ok value => return value
  | .error reason => throw (.expected reason)

/-- The octets of a UUID. -/
def Uuid.toJson (uuid : Uuid) : Json := .hex (uuidConverter.unwrap uuid)

/-- Reads a UUID from its octets. -/
def Uuid.ofJson (json : Json) : JsonResult Uuid := uuidConverter.ofOctets json

/-- The octets of an address under the version. -/
def IpAddress.toJson (address : IpAddress) : Json :=
  let octets := Json.hex (ipAddressConverter.unwrap address)
  match address with
  | .v4 _ => .object [("v4", octets)]
  | .v6 _ => .object [("v6", octets)]

/-- Reads an address from the octets under its version. -/
def IpAddress.ofJson (json : Json) : JsonResult IpAddress := do
  match json.member? "v4", json.member? "v6" with
  | some octets, _ => ipAddressConverter.ofOctets octets
  | none, some octets => ipAddressConverter.ofOctets octets
  | none, none => throw (.expected "address")

/-- Reads a converted value in its domain form. -/
def Value.ofDomainJson (converter : String) (json : Json) : JsonResult Value := do
  let wire (bytes : Bytes) : Value := .scalar (.bytes bytes)
  if converter = uuidConverter.name then
    return (Reference.domain (← Uuid.ofJson json)).toValue uuidConverter wire
  else return (Reference.domain (← IpAddress.ofJson json)).toValue ipAddressConverter wire

/-! ## Writing messages -/

mutual

/-- The document of a value. -/
def Value.toJson (catalog : Catalog) (type : ValueType) : Value → Json
  | .scalar scalar => scalar.toJson
  | .enumeration value =>
      match type with
      | .enumeration schema => schema.valueToJson value
      | _ => .null
  | .message message =>
      match type with
      | .message name => message.toJson catalog (catalog.schema name)
      | _ => .null
  | .absent => .null
  | .present value =>
      match type with
      | .option inner => value.toJson catalog inner
      | _ => .null
  | .reference _ value =>
      match type with
      | .converted _ wire => value.toJson catalog wire
      | _ => .null

/-- The document of a message: its entries, its captured records and its remembered size. -/
def Message.toJson (catalog : Catalog) (schema : MessageSchema) : Message → Json
  | .mk contents unknown cache =>
      .object (contentsToMembers catalog schema.entries contents
        ++ schema.unknownField.toList.map (·, unknown.toJson)
        ++ schema.sizeField.toList.map (·, Json.orNull (cache.get?.map Json.nat)))

/-- The members that show contents. -/
def contentsToMembers (catalog : Catalog) :
    List Entry → List Content → List (String × Json)
  | entry :: entries, content :: contents =>
      (entry.name, content.toJson catalog entry) :: contentsToMembers catalog entries contents
  | _, _ => []

/-- The document of the content of an entry. -/
def Content.toJson (catalog : Catalog) (entry : Entry) : Content → Json
  | .singular value =>
      match entry with
      | .singular _ _ type _ _ => value.toJson catalog type
      | _ => .null
  | .repeated values =>
      match entry with
      | .repeated _ _ element _ => .list (valuesToJson catalog element values)
      | _ => .null
  | .mapping entries =>
      match entry with
      | .map _ _ _ type _ => .list (entriesToJson catalog type entries)
      | _ => .null
  | .unset => .null
  | .chosen place value =>
      match entry with
      | .oneof _ schema _ =>
          match schema.members[place]? with
          | some member => .object [(member.name, value.toJson catalog member.type)]
          | none => .null
      | _ => .null

/-- The documents of values. -/
def valuesToJson (catalog : Catalog) (type : ValueType) : List Value → List Json
  | [] => []
  | value :: rest => value.toJson catalog type :: valuesToJson catalog type rest

/-- The documents of the entries of a map: lists of key and value. -/
def entriesToJson (catalog : Catalog) (type : ValueType) : List (Scalar × Value) → List Json
  | [] => []
  | (key, value) :: rest =>
      .list [key.toJson, value.toJson catalog type] :: entriesToJson catalog type rest

end

/-! ## Reading messages -/

/-- Reads a value, given how messages of a named type are read. -/
def ValueType.ofJson (catalog : Catalog) (message : String → Json → JsonResult Message)
    (type : ValueType) (json : Json) : JsonResult Value :=
  match json, type with
  | .null, _ =>
      match catalog.default? type with
      | some value => .ok value
      | none => .error (.expected "value")
  | _, .scalar kind => return .scalar (← kind.ofJson json)
  | _, .enumeration schema => return .enumeration (← schema.valueOfJson json)
  | _, .message name => return .message (← message name json)
  | _, .option inner => return .present (← inner.ofJson catalog message json)
  | _, .converted converter wire =>
      match json.member? "domain" with
      | some domain => Value.ofDomainJson converter domain
      | none => return .reference .wire (← wire.ofJson catalog message json)

/-- Reads the member of a oneof that is set: the first that the document has. -/
def Content.ofMembersJson (catalog : Catalog) (message : String → Json → JsonResult Message)
    (json : Json) : (place : Nat) → List Member → JsonResult Content
  | _, [] => .error (.expected "member")
  | place, member :: rest =>
      match json with
      | .object members =>
          match members.lookup member.name with
          | some value => return .chosen place (← member.type.ofJson catalog message value)
          | none => ofMembersJson catalog message json (place + 1) rest
      | _ => .error (.expected "member")

/-- The key and the value of an entry of a map; what is missing is `null`. -/
def Json.asEntry (json : Json) : JsonResult (Json × Json) := do
  let parts ← json.asList
  return (Json.orNull parts[0]?, Json.orNull parts[1]?)

/-- Reads the entries of a map; a later entry replaces an earlier one with its key. -/
def Content.ofEntriesJson (catalog : Catalog) (message : String → Json → JsonResult Message)
    (key : ScalarType) (type : ValueType) :
    (entries : List (Scalar × Value)) → List Json → JsonResult Content
  | entries, [] => return .mapping entries
  | entries, json :: rest => do
      let (keyJson, valueJson) ← json.asEntry
      let value ← type.ofJson catalog message valueJson
      ofEntriesJson catalog message key type
        (insertEntry (← key.ofJson keyJson) value entries) rest

/-- Reads the content of an entry. -/
def Entry.ofJson (catalog : Catalog) (message : String → Json → JsonResult Message)
    (entry : Entry) (json : Json) : JsonResult Content :=
  match entry with
  | .singular _ _ type _ _ => return .singular (← type.ofJson catalog message json)
  | .repeated _ _ element _ =>
      match json with
      | .null => .ok (.repeated [])
      | _ => return .repeated (← (← json.asList).mapM (element.ofJson catalog message))
  | .map _ _ key type _ =>
      match json with
      | .null => .ok (.mapping [])
      | _ => do Content.ofEntriesJson catalog message key type [] (← json.asList)
  | .oneof _ schema required =>
      match json with
      | .null => if required then .error (.expected "member") else .ok .unset
      | _ => Content.ofMembersJson catalog message json 0 schema.members

namespace Catalog

/-- Reads a message whose document is nested in at most `levels` levels. -/
def messageOfJsonWithin (catalog : Catalog) :
    (levels : Nat) → (name : String) → Json → JsonResult Message
  | 0, _, _ => .error (.expected "message")
  | levels + 1, name, json =>
      match json with
      | .object _ => do
          let schema := catalog.schema name
          let contents ← schema.entries.mapM fun entry =>
            entry.ofJson catalog (catalog.messageOfJsonWithin levels)
              (json.get entry.name)
          let unknown ← match schema.unknownField with
            | some field => UnknownFieldSet.ofItems (← json.items field)
            | none => .ok .empty
          return .mk contents unknown .empty
      | _ => .error (.expected "message")

/-- Reads a message. Each message inside is nested deeper than the one around it. -/
def messageOfJson (catalog : Catalog) (name : String) (json : Json) : JsonResult Message :=
  catalog.messageOfJsonWithin (json.depth + 1) name json

/-- Reads a value. -/
def valueOfJson (catalog : Catalog) (type : ValueType) (json : Json) : JsonResult Value :=
  type.ofJson catalog (catalog.messageOfJsonWithin (json.depth + 1)) json

/-- Reads the content of an entry. -/
def contentOfJson (catalog : Catalog) (entry : Entry) (json : Json) : JsonResult Content :=
  entry.ofJson catalog (catalog.messageOfJsonWithin (json.depth + 1)) json

end Catalog

end ProtoWire
