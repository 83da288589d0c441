import ProtoWire.Declaration.Message

/-! # The code of a message

The code of a message has four parts: the entries of its descriptor, the steps of decoding, the
statements that encode it and the terms of its size. Each part is worked out from the fields by
itself, with the fields in order of declaration. Decoding names things by the place and the name
of the field they belong to.
-/

namespace ProtoWire.Code

open Declaration (AcceptedField AcceptedMessage FieldRole Identifier)
open Source (TypeText)

/-! ## Names -/

/-- The name of the constant for the tag of the field at a place. -/
def tagName (place : Nat) : String := s!"__TAG_{place}"

/-- The name of the constant for the packed tag of the field at a place. -/
def packedTagName (place : Nat) : String := s!"__TAG_{place}_PACKED"

/-- The name of the variable that holds the value of a field while decoding. -/
def variableName (field : Identifier) : String := "__" ++ field.name

/-! ## Parts of the code -/

/-- How it is settled whether a repeated field is packed. -/
structure Packing where
  dialect : Dialect
  element : TypeText
  explicit : Option Bool
deriving Repr

/-- An entry of a descriptor. -/
inductive EntryCode where
  | singular (number : UInt32) (name : String) (type : TypeText) (optional nonNull : Bool)
  | repeated (number : UInt32) (name : String) (packing : Packing)
  | map (number : UInt32) (name : String)
  | oneof (name : String) (type : TypeText) (required : Bool)
deriving Repr

/-- A constant for a tag, with the wire type of a type or else for a length. -/
structure TagConstant where
  name : String
  number : UInt32
  type : Option TypeText
deriving Repr

/-- What a variable holds before decoding. -/
inductive VariableStart where
  /-- Nothing, of an optional type. -/
  | none (type : TypeText)
  /-- The default of a type. -/
  | default (type : TypeText)
  /-- An unknown set without fields. -/
  | noRecords
deriving Repr

/-- A variable of decoding. -/
structure VariableCode where
  name : String
  start : VariableStart
deriving Repr

/-- What is done with a record that has a field's tag. -/
inductive ArmCode where
  /-- The value replaces the one before and counts as present. -/
  | present (tag variableName : String) (type : TypeText)
  /-- The value replaces the one before. -/
  | replace (tag variableName : String) (type : TypeText)
  /-- The elements are added. -/
  | append (tag packedTag variableName : String) (element : TypeText)
  /-- The entry is inserted. -/
  | insert (tag variableName : String)
deriving Repr

/-- An attempt to read a record as a member of a oneof. -/
structure AttemptCode where
  variableName : String
  type : TypeText
deriving Repr

/-- How a field of the decoded message gets its value. -/
inductive FieldStart where
  | variable (name : String)
  /-- From a variable that has to be present, or else the named field is missing. -/
  | required (variableName fieldName : String)
  /-- From the records captured in a variable. -/
  | records (variableName : String)
  /-- A remembered size of nothing. -/
  | freshSize
deriving DecidableEq, Repr

/-- The value of a field of the decoded message. -/
structure FieldCode where
  field : Identifier
  start : FieldStart
deriving DecidableEq, Repr

/-- The steps of decoding. -/
structure DecodeCode where
  constants : List TagConstant
  bindings : List VariableCode
  arms : List ArmCode
  attempts : List AttemptCode
  /-- The variable that captures all other records; without one they are skipped. -/
  records : Option String
  fields : List FieldCode
deriving Repr

/-- A statement that encodes a field, or a term of the size. -/
inductive OutputCode where
  | singular (field : Identifier) (number : UInt32) (nonNull : Bool)
  | repeated (field : Identifier) (number : UInt32) (packing : Packing)
  | map (field : Identifier) (number : UInt32)
  | oneof (field : Identifier) (required : Bool)
  | unknown (field : Identifier)
deriving Repr

/-! ## The parts of one field -/

/-- The entry of a field in the descriptor; special fields have none. -/
def entryCode? (dialect : Dialect) (field : AcceptedField) : Option EntryCode :=
  match field.role with
  | .singular number optional nonNull =>
      some (.singular number field.name.name field.type optional nonNull)
  | .repeated number packed element =>
      some (.repeated number field.name.name ⟨dialect, element, packed⟩)
  | .map number => some (.map number field.name.name)
  | .oneof type required => some (.oneof field.name.name type required)
  | .unknown | .sizeCache => none

/-- The constants for the tags of a field at a place. -/
def tagConstants (place : Nat) (field : AcceptedField) : List TagConstant :=
  match field.role with
  | .singular number _ _ => [⟨tagName place, number, some field.type⟩]
  | .repeated number _ element =>
      [⟨tagName place, number, some element⟩, ⟨packedTagName place, number, none⟩]
  | .map number => [⟨tagName place, number, none⟩]
  | .oneof _ _ | .unknown | .sizeCache => []

/-- The variable of a field; a remembered size needs none. -/
def variableCode? (field : AcceptedField) : Option VariableCode :=
  let name := variableName field.name
  match field.role with
  | .singular _ _ true => some ⟨name, .none field.type⟩
  | .singular _ _ false | .repeated .. | .map _ => some ⟨name, .default field.type⟩
  | .oneof type _ => some ⟨name, .none type⟩
  | .unknown => some ⟨name, .noRecords⟩
  | .sizeCache => none

/-- The arm for the tags of a field at a place. -/
def armCode? (place : Nat) (field : AcceptedField) : Option ArmCode :=
  let name := variableName field.name
  match field.role with
  | .singular _ _ true => some (.present (tagName place) name field.type)
  | .singular _ _ false => some (.replace (tagName place) name field.type)
  | .repeated _ _ element => some (.append (tagName place) (packedTagName place) name element)
  | .map _ => some (.insert (tagName place) name)
  | .oneof _ _ | .unknown | .sizeCache => none

/-- The attempt for a oneof. -/
def attemptCode? (field : AcceptedField) : Option AttemptCode :=
  match field.role with
  | .oneof type _ => some ⟨variableName field.name, type⟩
  | _ => none

/-- The value of a field of the decoded message. -/
def fieldCode (field : AcceptedField) : FieldCode :=
  let name := variableName field.name
  match field.role with
  | .singular _ _ true | .oneof _ true => ⟨field.name, .required name field.name.name⟩
  | .singular _ _ false | .repeated .. | .map _ | .oneof _ false => ⟨field.name, .variable name⟩
  | .unknown => ⟨field.name, .records name⟩
  | .sizeCache => ⟨field.name, .freshSize⟩

/-- The statement that encodes a declared field. -/
def encodeCode? (dialect : Dialect) (field : AcceptedField) : Option OutputCode :=
  match field.role with
  | .singular number _ nonNull => some (.singular field.name number nonNull)
  | .repeated number packed element =>
      some (.repeated field.name number ⟨dialect, element, packed⟩)
  | .map number => some (.map field.name number)
  | .oneof _ required => some (.oneof field.name required)
  | .unknown | .sizeCache => none

/-- The term of a field in the size. -/
def sizeCode? (dialect : Dialect) (field : AcceptedField) : Option OutputCode :=
  match field.role with
  | .singular number _ nonNull => some (.singular field.name number nonNull)
  | .repeated number packed element =>
      some (.repeated field.name number ⟨dialect, element, packed⟩)
  | .map number => some (.map field.name number)
  | .oneof _ required => some (.oneof field.name required)
  | .unknown => some (.unknown field.name)
  | .sizeCache => none

/-! ## The code of all fields -/

/-- The name of the last field that keeps undeclared records. -/
def unknownField? (fields : List AcceptedField) : Option Identifier :=
  (fields.filterMap fun field =>
    match field.role with
    | .unknown => some field.name
    | _ => none).getLast?

/-- The name of the last field that remembers the size. -/
def sizeField? (fields : List AcceptedField) : Option Identifier :=
  (fields.filterMap fun field =>
    match field.role with
    | .sizeCache => some field.name
    | _ => none).getLast?

/-- The steps of decoding a message with the given fields. -/
def decodeCode (fields : List AcceptedField) : DecodeCode where
  constants := (fields.mapIdx tagConstants).flatten
  bindings := fields.filterMap variableCode?
  arms := (fields.mapIdx armCode?).filterMap id
  attempts := fields.filterMap attemptCode?
  records := (unknownField? fields).map variableName
  fields := fields.map fieldCode

/-- The code of a message. -/
structure MessageCode where
  name : Identifier
  fullName : String
  dialect : Dialect
  entries : List EntryCode
  decode : DecodeCode
  /-- The statements that encode the message: declared fields, then undeclared records. -/
  encode : List OutputCode
  size : List OutputCode
  /-- The field that remembers the size. -/
  sizeField : Option Identifier
  /-- The field that keeps undeclared records. -/
  unknownField : Option Identifier
deriving Repr

/-- The code of an accepted message. -/
def messageCode (message : AcceptedMessage) : MessageCode where
  name := message.name
  fullName := message.fullName
  dialect := message.dialect
  entries := message.fields.filterMap (entryCode? message.dialect)
  decode := decodeCode message.fields
  encode := message.fields.filterMap (encodeCode? message.dialect)
    ++ ((unknownField? message.fields).map OutputCode.unknown).toList
  size := message.fields.filterMap (sizeCode? message.dialect)
  sizeField := sizeField? message.fields
  unknownField := unknownField? message.fields

end ProtoWire.Code
