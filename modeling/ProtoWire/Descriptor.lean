import ProtoWire.FieldType

/-! # Message descriptors

A descriptor lists the fields of a message type as they are declared, the members of a oneof
together. It answers which tag a field is written with, which tags it is read under, and whether
its numbers and packing are sound.
-/

namespace ProtoWire

/-- A field that is not a oneof. A map is a repeated message field with `map` set. -/
structure StandardField where
  number : UInt32
  name : String
  type : FieldType
  repeated : Bool := false
  packed : Bool := false
  /-- Absent and default are told apart. -/
  optional : Bool := false
  /-- Always written, and required when decoding. -/
  nonNull : Bool := false
  map : Bool := false
  /-- The value goes through a converter. -/
  wrapped : Bool := false
deriving DecidableEq, Repr

namespace StandardField

/-- The tag of one element or value of the field. -/
def elementTag (field : StandardField) : UInt32 :=
  if field.map then Tag.make field.number .len else Tag.make field.number field.type.wireType

/-- The tag the field is written with. -/
def tag (field : StandardField) : UInt32 :=
  if field.packed || field.map then Tag.make field.number .len
  else Tag.make field.number field.type.wireType

/-- The tags the field is read under: repeated fields that can be packed are read in both forms. -/
def acceptedTags (field : StandardField) : List UInt32 :=
  if field.repeated && field.type.isPackable then
    [field.elementTag, Tag.make field.number .len]
  else [field.elementTag]

end StandardField

/-- Fields that share one slot, of which at most one is set. -/
structure OneofDescriptor where
  name : String
  members : List StandardField
  /-- Decoding fails when no member is present. -/
  required : Bool
deriving DecidableEq, Repr

/-- An entry of a message as it is declared. -/
inductive EntryDescriptor where
  | standard (field : StandardField)
  | oneof (group : OneofDescriptor)
deriving DecidableEq, Repr

/-- The fields that make up an entry. -/
def EntryDescriptor.members : EntryDescriptor → List StandardField
  | .standard field => [field]
  | .oneof group => group.members

/-- The fields of a message type, in the order of declaration. -/
structure MessageDescriptor where
  name : String
  dialect : Dialect
  entries : List EntryDescriptor
deriving DecidableEq, Repr

namespace MessageDescriptor

/-- All fields, with the members of a oneof in its place. -/
def standardFields (descriptor : MessageDescriptor) : List StandardField :=
  descriptor.entries.flatMap (·.members)

/-- The fields that are not members of a oneof. -/
def directFields (descriptor : MessageDescriptor) : List StandardField :=
  descriptor.entries.filterMap fun
    | .standard field => some field
    | .oneof _ => none

/-- The oneofs. -/
def oneofs (descriptor : MessageDescriptor) : List OneofDescriptor :=
  descriptor.entries.filterMap fun
    | .standard _ => none
    | .oneof group => some group

/-- Whether one of the fields carries the number. -/
def hasNumber (fields : List StandardField) (number : UInt32) : Bool :=
  fields.any (·.number == number)

/-- The number of the first member of an entry whose number a later member carries too, or a field
of the entries after it. -/
def repeatedMember? (later : List EntryDescriptor) : List StandardField → Option UInt32
  | [] => none
  | member :: rest =>
      if hasNumber rest member.number then some member.number
      else if later.any (hasNumber ·.members member.number) then some member.number
      else repeatedMember? later rest

/-- The first such number of all entries. -/
def repeatedNumber? : List EntryDescriptor → Option UInt32
  | [] => none
  | entry :: later =>
      match repeatedMember? later entry.members with
      | some number => some number
      | none => repeatedNumber? later

/-- The number of the earliest field whose number a later field carries too. -/
def duplicateNumber? (descriptor : MessageDescriptor) : Option UInt32 :=
  repeatedNumber? descriptor.entries

/-- The first field with a given number. -/
def findByNumber? (descriptor : MessageDescriptor) (number : UInt32) : Option StandardField :=
  descriptor.standardFields.find? (·.number == number)

/-- The first field read under a given tag. -/
def findByTag? (descriptor : MessageDescriptor) (tag : UInt32) : Option StandardField :=
  descriptor.standardFields.find? (·.acceptedTags.contains tag)

/-- Puts a field under a tag into a table sorted by tag; a field already there gives way. -/
def claim (tag : UInt32) (field : StandardField) :
    List (UInt32 × StandardField) → List (UInt32 × StandardField)
  | [] => [(tag, field)]
  | (other, held) :: rest =>
      if tag < other then (tag, field) :: (other, held) :: rest
      else if tag = other then (tag, field) :: rest
      else (other, held) :: claim tag field rest

/-- Every accepted tag with the last field that claims it, sorted by tag. -/
def dispatchTable (descriptor : MessageDescriptor) : List (UInt32 × StandardField) :=
  (descriptor.standardFields.flatMap fun field =>
      field.acceptedTags.map fun tag => (tag, field)).foldl
    (fun table (tag, field) => claim tag field table) []

/-- Checks one field against the fields before it: range, reserved range, packing, number. -/
def checkField (seen : List StandardField) (field : StandardField) :
    Except DescriptorError Unit :=
  if !Tag.inRange field.number then .error (.invalidFieldNumber field.name field.number)
  else if Tag.isReserved field.number then
    .error (.reservedFieldNumber field.name field.number)
  else if field.packed && !field.type.isPackable then
    .error (.packedNotPackable field.name field.type.keyword)
  else
    match seen.find? (·.number == field.number) with
    | some first => .error (.duplicateFieldNumber field.number first.name field.name)
    | none => .ok ()

/-- Checks fields in order, each against those before it. -/
def checkFields : (seen : List StandardField) → List StandardField → Except DescriptorError Unit
  | _, [] => .ok ()
  | seen, field :: rest => do
      checkField seen field
      checkFields (seen ++ [field]) rest

/-- Checks field numbers and packing, reporting the first offending field. -/
def validate (descriptor : MessageDescriptor) : Except DescriptorError Unit :=
  checkFields [] descriptor.standardFields

end MessageDescriptor

end ProtoWire
