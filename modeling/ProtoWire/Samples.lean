import ProtoWire.Schema

/-! # A catalog of sample message types

The message types, oneofs and enumerations that exercise every kind of entry: nested and recursive
messages, packed and unpacked runs, maps, oneofs, converted values, captured records and remembered
sizes.
-/

namespace ProtoWire.Samples

/-! ## Enumerations -/

def corpus : EnumSchema where
  name := "Corpus"
  variants := [⟨"Unspecified", 0⟩, ⟨"Web", 1⟩, ⟨"Images", 2⟩, ⟨"Legacy", -1⟩]

def status : EnumSchema where
  name := "Status"
  variants := [⟨"Unknown", 0⟩, ⟨"Active", 1⟩]

def kind : EnumSchema where
  name := "Kind"
  variants := [⟨"Unspecified", 0⟩, ⟨"Employee", 1⟩, ⟨"Contractor", 2⟩]

/-- An enumeration without a variant numbered 0. -/
def noZero : EnumSchema where
  name := "NoZero"
  variants := [⟨"Max", 2147483647⟩, ⟨"Min", -2147483648⟩, ⟨"Five", 5⟩]

/-- An enumeration in which variants share numbers. -/
def aliased : EnumSchema where
  name := "Aliased"
  variants := [⟨"Zero", 0⟩, ⟨"First", 1⟩, ⟨"Second", 1⟩, ⟨"Nil", 0⟩]

/-- All sample enumerations. -/
def enumerations : List EnumSchema := [corpus, status, kind, noZero, aliased]

/-! ## Value types and entries -/

def uuid : ValueType := .converted "UuidBytesConverter" (.scalar .bytes)

def ipAddress : ValueType := .converted "IpAddrBytesConverter" (.scalar .bytes)

/-- A singular scalar field. -/
def scalar (name : String) (number : UInt32) (type : ScalarType) : Entry :=
  .singular name number (.scalar type) false false

/-- A singular field of any type. -/
def field (name : String) (number : UInt32) (type : ValueType) : Entry :=
  .singular name number type false false

/-- A field that may be absent. -/
def optional (name : String) (number : UInt32) (type : ValueType) : Entry :=
  .singular name number (.option type) true false

/-- A field that is always written and has to be present. -/
def nonNull (name : String) (number : UInt32) (type : ValueType) : Entry :=
  .singular name number type false true

/-- A repeated field, packed as its dialect says. -/
def repeated (name : String) (number : UInt32) (type : ValueType) : Entry :=
  .repeated name number type none

/-- A map written in the order of its keys. -/
def map (name : String) (number : UInt32) (key : ScalarType) (value : ValueType) : Entry :=
  .map name number key value .byKey

/-- A map written in any order. -/
def hashMap (name : String) (number : UInt32) (key : ScalarType) (value : ValueType) : Entry :=
  .map name number key value .unspecified

/-! ## Oneofs -/

def testOneof : OneofSchema where
  name := "TestOneof"
  members := [
    ⟨"IntValue", 1, .scalar .int32⟩,
    ⟨"StringValue", 2, .scalar .string⟩,
    ⟨"BoolValue", 3, .scalar .bool⟩,
    ⟨"BytesValue", 4, .scalar .bytes⟩]

def payload : OneofSchema where
  name := "Payload"
  members := [⟨"Count", 1, .scalar .uint64⟩, ⟨"Nested", 2, .message "Inner"⟩]

def contact : OneofSchema where
  name := "Contact"
  members := [⟨"Phone", 12, .scalar .string⟩, ⟨"Pager", 13, .scalar .uint64⟩]

def anyScalar : OneofSchema where
  name := "AnyScalar"
  members := [
    ⟨"Double", 20, .scalar .double⟩,
    ⟨"Float", 21, .scalar .float⟩,
    ⟨"Sint", 22, .scalar .sint32⟩,
    ⟨"Fixed", 23, .scalar .fixed64⟩,
    ⟨"Sfixed", 24, .scalar .sfixed32⟩,
    ⟨"Enum", 25, .enumeration corpus⟩,
    ⟨"Message", 26, .message "Header"⟩,
    ⟨"Wrapped", 27, ipAddress⟩,
    ⟨"False", 300, .scalar .bool⟩]

def child : OneofSchema where
  name := "Child"
  members := [⟨"Left", 3, .message "Tree"⟩, ⟨"Right", 4, .message "Tree"⟩]

/-- All sample oneofs. -/
def oneofs : List OneofSchema := [testOneof, payload, contact, anyScalar, child]

/-! ## Message types -/

def scalars : MessageSchema where
  name := "example.Scalars"
  entries := [
    scalar "f_double" 1 .double,
    scalar "f_float" 2 .float,
    scalar "f_int64" 3 .int64,
    scalar "f_uint64" 4 .uint64,
    scalar "f_int32" 5 .int32,
    scalar "f_fixed64" 6 .fixed64,
    scalar "f_fixed32" 7 .fixed32,
    scalar "f_bool" 8 .bool,
    scalar "f_string" 9 .string,
    scalar "f_bytes" 10 .bytes,
    scalar "f_uint32" 13 .uint32,
    scalar "f_sfixed32" 15 .sfixed32,
    scalar "f_sfixed64" 16 .sfixed64,
    scalar "f_sint32" 17 .sint32,
    scalar "f_sint64" 18 .sint64]

def legacy : MessageSchema where
  name := "Legacy"
  dialect := .proto2
  entries := [
    repeated "ids" 1 (.scalar .uint32),
    .repeated "packed_ids" 2 (.scalar .uint32) (some true),
    repeated "names" 3 (.scalar .string),
    .repeated "checksums" 4 (.scalar .fixed32) (some true)]

def modern : MessageSchema where
  name := "Modern"
  entries := [
    repeated "ids" 1 (.scalar .uint32),
    .repeated "unpacked_ids" 2 (.scalar .uint32) (some false)]

def header : MessageSchema where
  name := "Header"
  entries := [scalar "id" 1 .uint32, scalar "source" 2 .string]

def frame : MessageSchema where
  name := "Frame"
  entries := [
    nonNull "header" 1 (.message "Header"),
    nonNull "sequence" 2 (.scalar .uint32),
    optional "trailer" 3 (.message "Header"),
    optional "note" 4 (.scalar .string)]

def link : MessageSchema where
  name := "Link"
  entries := [
    scalar "value" 1 .int32,
    optional "next" 2 (.message "Link"),
    repeated "branches" 3 (.message "Link")]

def cached : MessageSchema where
  name := "Cached"
  entries := [scalar "name" 1 .string, repeated "children" 2 (.message "Cached")]
  sizeField := some "size"

def messageWithOneof : MessageSchema where
  name := "MessageWithOneof"
  entries := [scalar "id" 10 .int64, .oneof "test_oneof" testOneof false]

def inner : MessageSchema where
  name := "Inner"
  entries := [scalar "value" 1 .int32, scalar "label" 2 .string]

def envelope : MessageSchema where
  name := "Envelope"
  entries := [.oneof "payload" payload false]

def command : MessageSchema where
  name := "Command"
  entries := [scalar "sequence" 5 .uint32, .oneof "action" payload true]

def searchRequest : MessageSchema where
  name := "SearchRequest"
  entries := [
    scalar "query" 1 .string,
    field "corpus" 2 (.enumeration corpus),
    repeated "filters" 3 (.enumeration corpus),
    optional "fallback" 4 (.enumeration corpus)]

def stringToIntMap : MessageSchema where
  name := "StringToIntMap"
  entries := [map "entries" 1 .string (.scalar .int32)]

def intToStringMap : MessageSchema where
  name := "IntToStringMap"
  entries := [hashMap "entries" 1 .int32 (.scalar .string)]

def multipleMapFields : MessageSchema where
  name := "MultipleMapFields"
  entries := [
    scalar "name" 1 .string,
    map "settings" 2 .string (.scalar .string),
    map "counts" 3 .bool (.scalar .int64)]

def account : MessageSchema where
  name := "Account"
  entries := [scalar "owner" 1 .string, field "status" 2 (.enumeration status)]

def registry : MessageSchema where
  name := "Registry"
  entries := [
    map "accounts" 1 .uint64 (.message "Account"),
    map "statuses" 2 .string (.enumeration status)]

def session : MessageSchema where
  name := "Session"
  entries := [field "id" 1 uuid, field "peer" 2 ipAddress, repeated "hops" 3 ipAddress]

def address : MessageSchema where
  name := "Address"
  entries := [scalar "street" 1 .string, scalar "zip" 2 .uint32]

def person : MessageSchema where
  name := "Person"
  entries := [
    scalar "name" 1 .string,
    scalar "id" 2 .int32,
    optional "email" 3 (.scalar .string),
    repeated "scores" 4 (.scalar .int64),
    repeated "tags" 5 (.scalar .string),
    field "kind" 6 (.enumeration kind),
    map "attrs" 7 .string (.scalar .int64),
    optional "address" 8 (.message "Address"),
    scalar "ratio" 9 .double,
    scalar "delta" 10 .sint64,
    scalar "checksum" 11 .fixed32,
    .oneof "contact" contact false,
    scalar "blob" 14 .bytes]

def personSummary : MessageSchema where
  name := "PersonSummary"
  entries := [scalar "name" 1 .string, scalar "id" 2 .int32]
  unknownField := some "unknown"

def rep : MessageSchema where
  name := "Rep"
  entries := [
    repeated "doubles" 1 (.scalar .double),
    repeated "floats" 2 (.scalar .float),
    repeated "int32s" 3 (.scalar .int32),
    repeated "int64s" 4 (.scalar .int64),
    repeated "uint32s" 5 (.scalar .uint32),
    repeated "uint64s" 6 (.scalar .uint64),
    repeated "sint32s" 7 (.scalar .sint32),
    repeated "sint64s" 8 (.scalar .sint64),
    repeated "fixed32s" 9 (.scalar .fixed32),
    repeated "fixed64s" 10 (.scalar .fixed64),
    repeated "sfixed32s" 11 (.scalar .sfixed32),
    repeated "sfixed64s" 12 (.scalar .sfixed64),
    repeated "bools" 13 (.scalar .bool),
    repeated "strings" 14 (.scalar .string),
    repeated "blobs" 15 (.scalar .bytes),
    repeated "enums" 16 (.enumeration corpus),
    repeated "messages" 17 (.message "Header"),
    repeated "boxed" 18 (.message "Inner")]
  unknownField := some "unknown"

def rep2 : MessageSchema where
  name := "legacy.v2.Rep2"
  dialect := .proto2
  entries := [
    repeated "doubles" 6 (.scalar .double),
    .repeated "packed_doubles" 5 (.scalar .double) (some true),
    .repeated "sint32s" 4 (.scalar .sint32) (some false),
    .repeated "packed_bools" 3 (.scalar .bool) (some true),
    .repeated "strings" 2 (.scalar .string) (some true),
    .repeated "packed_enums" 1 (.enumeration corpus) (some true)]

def opts : MessageSchema where
  name := "Opts"
  entries := [
    optional "o_double" 1 (.scalar .double),
    optional "o_float" 2 (.scalar .float),
    optional "o_int32" 3 (.scalar .int32),
    optional "o_uint64" 4 (.scalar .uint64),
    optional "o_sint32" 5 (.scalar .sint32),
    optional "o_fixed64" 6 (.scalar .fixed64),
    optional "o_sfixed32" 7 (.scalar .sfixed32),
    optional "o_bool" 8 (.scalar .bool),
    optional "o_string" 9 (.scalar .string),
    optional "o_bytes" 10 (.scalar .bytes),
    optional "o_enum" 11 (.enumeration noZero),
    optional "o_message" 12 (.message "Header"),
    optional "o_boxed" 13 (.message "Opts"),
    optional "o_wrapped" 14 uuid]

def required : MessageSchema where
  name := "Required"
  entries := [
    nonNull "r_float" 3 (.scalar .float),
    nonNull "r_string" 1 (.scalar .string),
    nonNull "r_enum" 2 (.enumeration aliased),
    nonNull "r_bytes" 4 (.scalar .bytes),
    nonNull "r_boxed" 5 (.message "Inner"),
    nonNull "type" 6 (.scalar .bool)]
  unknownField := some "unknown"

def mapKeys : MessageSchema where
  name := "MapKeys"
  entries := [
    map "k_int32" 1 .int32 (.scalar .double),
    map "k_int64" 2 .int64 (.scalar .float),
    map "k_uint32" 3 .uint32 (.scalar .bool),
    map "k_uint64" 4 .uint64 (.scalar .bytes),
    map "k_sint32" 5 .sint32 (.scalar .sint64),
    map "k_sint64" 6 .sint64 (.scalar .fixed32),
    map "k_fixed32" 7 .fixed32 (.scalar .sfixed64),
    map "k_fixed64" 8 .fixed64 (.enumeration corpus),
    map "k_sfixed32" 9 .sfixed32 (.message "Header"),
    map "k_sfixed64" 10 .sfixed64 (.scalar .uint32),
    map "k_bool" 11 .bool (.scalar .string),
    map "k_string" 12 .string (.enumeration noZero)]
  unknownField := some "unknown"

def hashMaps : MessageSchema where
  name := "HashMaps"
  entries := [
    hashMap "blobs" 1 .sint64 (.scalar .bytes),
    hashMap "headers" 200 .string (.message "Header")]

def numbers : MessageSchema where
  name := "Numbers"
  entries := [
    scalar "n_max" 536870911 .uint32,
    scalar "n_15" 15 .uint32,
    scalar "n_16" 16 .string,
    repeated "n_2047" 2047 (.scalar .uint32),
    repeated "n_2048" 2048 (.scalar .string),
    scalar "n_18999" 18999 .fixed32,
    scalar "n_20000" 20000 .fixed64,
    field "n_262143" 262143 (.message "Header"),
    optional "n_262144" 262144 (.scalar .bool),
    scalar "n_33554431" 33554431 .sint32,
    map "n_33554432" 33554432 .uint32 (.scalar .uint32),
    scalar "n_1" 1 .uint32]
  unknownField := some "unknown"

def multiOneof : MessageSchema where
  name := "MultiOneof"
  entries := [
    nonNull "first" 30 (.scalar .uint32),
    .oneof "any" anyScalar false,
    scalar "middle" 3 .string,
    .oneof "action" payload true,
    nonNull "last" 31 (.scalar .uint32)]
  unknownField := some "unknown"

/-- Messages in fields that are never absent; `frames` may be absent without saying so in its
descriptor. -/
def implicit : MessageSchema where
  name := "Implicit"
  entries := [
    field "scalars" 1 (.message "Scalars"),
    field "boxed" 2 (.message "Inner"),
    field "summary" 3 (.message "PersonSummary"),
    field "frame" 4 (.message "Frame"),
    field "frames" 5 (.option (.message "Frame")),
    field "request" 6 (.message "SearchRequest")]

def tree : MessageSchema where
  name := "Tree"
  entries := [
    scalar "label" 1 .string,
    map "kids" 2 .string (.message "Tree"),
    .oneof "child" child false,
    repeated "list" 5 (.message "Tree")]
  unknownField := some "unknown"
  sizeField := some "size"

def empty : MessageSchema where
  name := "Empty"
  entries := []

/-- The catalog of all sample message types. -/
def catalog : Catalog where
  messages := [
    ("Scalars", scalars),
    ("Legacy", legacy),
    ("Modern", modern),
    ("Header", header),
    ("Frame", frame),
    ("Link", link),
    ("Cached", cached),
    ("MessageWithOneof", messageWithOneof),
    ("Inner", inner),
    ("Envelope", envelope),
    ("Command", command),
    ("SearchRequest", searchRequest),
    ("StringToIntMap", stringToIntMap),
    ("IntToStringMap", intToStringMap),
    ("MultipleMapFields", multipleMapFields),
    ("Account", account),
    ("Registry", registry),
    ("Session", session),
    ("Address", address),
    ("Person", person),
    ("PersonSummary", personSummary),
    ("Rep", rep),
    ("Rep2", rep2),
    ("Opts", opts),
    ("Required", required),
    ("MapKeys", mapKeys),
    ("HashMaps", hashMaps),
    ("Numbers", numbers),
    ("MultiOneof", multiOneof),
    ("Implicit", implicit),
    ("Tree", tree),
    ("Empty", empty)]

end ProtoWire.Samples
