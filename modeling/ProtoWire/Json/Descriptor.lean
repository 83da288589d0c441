import ProtoWire.Descriptor
import ProtoWire.Json.Basic

/-! # Descriptors and errors as JSON

Wire types and field types go by their keywords. A descriptor is shown with what is worked out
from it: tags, oneofs, the dispatch table, the repeated number and the verdict of its check. An
error is its cause with its wording.
-/

namespace ProtoWire

/-! ## Keywords -/

/-- The keyword of a wire type. -/
def WireType.keyword : WireType → String
  | .varint => "varint"
  | .i64 => "i64"
  | .len => "len"
  | .i32 => "i32"

/-- The wire type of a keyword. -/
def WireType.ofKeyword? (keyword : String) : Option WireType :=
  [WireType.varint, .i64, .len, .i32].find? (·.keyword == keyword)

/-- Reads a keyword. -/
def Json.asKeyword (ofKeyword? : String → Option α) (what : String) (json : Json) :
    JsonResult α := do
  match ofKeyword? (← json.asText) with
  | some value => return value
  | none => throw (.expected what)

/-- Reads the keyword of a wire type. -/
def WireType.ofJson : Json → JsonResult WireType := Json.asKeyword WireType.ofKeyword? "wire type"

/-- Reads the keyword of a field type. -/
def FieldType.ofJson : Json → JsonResult FieldType :=
  Json.asKeyword FieldType.ofKeyword? "field type"

/-- Reads the keyword of a dialect. -/
def Dialect.ofJson : Json → JsonResult Dialect := Json.asKeyword Dialect.ofKeyword? "dialect"

/-! ## Errors -/

/-- The name of the cause of a decode error. -/
def DecodeError.cause : DecodeError → String
  | .malformedVarint => "MalformedVarint"
  | .truncated .. => "Truncated"
  | .unsupportedWireType _ => "UnsupportedWireType"
  | .invalidWireType _ => "InvalidWireType"
  | .invalidFieldNumber _ => "InvalidFieldNumber"
  | .invalidUtf8 => "InvalidUtf8"
  | .invalidPackedLength .. => "InvalidPackedLength"
  | .recursionLimitExceeded _ => "RecursionLimitExceeded"
  | .missingRequiredField _ => "MissingRequiredField"
  | .messageTooLarge .. => "MessageTooLarge"
  | .conversion _ => "Conversion"
  | .stream _ => "Io"

/-- The name of the cause of a descriptor error. -/
def DescriptorError.cause : DescriptorError → String
  | .invalidFieldNumber .. => "InvalidFieldNumber"
  | .reservedFieldNumber .. => "ReservedFieldNumber"
  | .duplicateFieldNumber .. => "DuplicateFieldNumber"
  | .packedNotPackable .. => "PackedNotPackable"
  | .unsupportedType _ => "UnsupportedType"

/-- The members that show an error. -/
def Json.errorMembers (cause message : String) : List (String × Json) :=
  [("error", .text cause), ("message", .text message)]

/-- The members that show a decode error; a fault of a stream has its own name too. -/
def DecodeError.toMembers (error : DecodeError) : List (String × Json) :=
  Json.errorMembers error.cause error.message ++ match error with
    | .stream .unexpectedEnd => [("io_kind", .text "UnexpectedEof")]
    | .stream .connectionReset => [("io_kind", .text "ConnectionReset")]
    | .stream (.other name) => [("io_kind", .text name)]
    | _ => []

/-- The members that show an encode error. -/
def EncodeError.toMembers (error : EncodeError) : List (String × Json) :=
  Json.errorMembers "EncodeError" error.message

/-- The members that show a conversion error. -/
def ConversionError.toMembers (error : ConversionError) : List (String × Json) :=
  Json.errorMembers "ConversionError" error.message

/-- The members that show a descriptor error. -/
def DescriptorError.toMembers (error : DescriptorError) : List (String × Json) :=
  Json.errorMembers error.cause error.message

/-! ## Fields -/

namespace StandardField

/-- The flags that are set on a field. -/
def flags (field : StandardField) : List String :=
  [("repeated", field.repeated), ("packed", field.packed), ("optional", field.optional),
    ("non_null", field.nonNull), ("map", field.map), ("wrapped", field.wrapped)].filterMap
    fun (name, isSet) => if isSet then some name else none

/-- The document of a field. -/
def toJson (field : StandardField) : Json :=
  .object [
    ("number", .nat field.number.toNat),
    ("name", .text field.name),
    ("type", .text field.type.keyword),
    ("flags", .texts field.flags),
    ("tag", .nat field.tag.toNat),
    ("accepted", .list (field.acceptedTags.map fun tag => .nat tag.toNat))]

/-- Reads a field. -/
def ofJson (json : Json) : JsonResult StandardField := do
  let flags ← (← json.items "flags").mapM Json.asText
  return {
    number := ← (json.get "number").asUInt32
    name := ← json.getText "name"
    type := ← FieldType.ofJson (json.get "type")
    repeated := flags.contains "repeated"
    packed := flags.contains "packed"
    optional := flags.contains "optional"
    nonNull := flags.contains "non_null"
    map := flags.contains "map"
    wrapped := flags.contains "wrapped" }

end StandardField

/-- Reads an entry; one with members is a oneof. -/
def EntryDescriptor.ofJson (json : Json) : JsonResult EntryDescriptor := do
  match json.member? "members" with
  | some members =>
      return .oneof {
        name := ← json.getText "name"
        members := ← (← members.asList).mapM StandardField.ofJson
        required := ← json.flag "required" }
  | none => return .standard (← StandardField.ofJson json)

namespace MessageDescriptor

/-- Reads a descriptor. -/
def ofJson (json : Json) : JsonResult MessageDescriptor := do
  return {
    name := ← json.getText "name"
    dialect := ← Dialect.ofJson (json.get "syntax")
    entries := ← (← json.items "fields").mapM EntryDescriptor.ofJson }

/-- The names of fields that were looked for. -/
def foundNames (fields : List (Option StandardField)) : Json :=
  .list (fields.map fun field => Json.orNull (field.map fun field => .text field.name))

/-- The members that show a descriptor and what is worked out from it. -/
def toMembers (descriptor : MessageDescriptor) : List (String × Json) := [
  ("name", .text descriptor.name),
  ("syntax", .text descriptor.dialect.keyword),
  ("fields", .list (descriptor.standardFields.map (·.toJson))),
  ("direct", .texts (descriptor.directFields.map (·.name))),
  ("oneofs", .list (descriptor.oneofs.map fun oneof => .object [
    ("name", .text oneof.name),
    ("required", .bool oneof.required),
    ("members", .texts (oneof.members.map (·.name)))])),
  ("entries", .list (descriptor.entries.map fun entry => .nat entry.members.length)),
  ("dispatch", .list (descriptor.dispatchTable.map fun (tag, field) =>
    .list [.nat tag.toNat, .text field.name])),
  ("duplicate", Json.orNull (descriptor.duplicateNumber?.map fun number => .nat number.toNat)),
  ("validate", match descriptor.validate with
    | .ok () => .text "ok"
    | .error error => .object error.toMembers)]

/-- The members that show a descriptor, with the fields found under the numbers and tags asked
for. -/
def answerQuery (descriptor : MessageDescriptor) (query : Json) :
    JsonResult (List (String × Json)) := do
  let byNumber ← match query.member? "find_numbers" with
    | some numbers =>
        let numbers ← (← numbers.asList).mapM Json.asUInt32
        pure [("find_numbers", foundNames (numbers.map descriptor.findByNumber?))]
    | none => pure []
  let byTag ← match query.member? "find_tags" with
    | some tags =>
        let tags ← (← tags.asList).mapM Json.asUInt32
        pure [("find_tags", foundNames (tags.map descriptor.findByTag?))]
    | none => pure []
  return descriptor.toMembers ++ byNumber ++ byTag

end MessageDescriptor

end ProtoWire
