import ProtoWire.Value

/-! # Decoding messages

A message body is a list of records in any order. Each record goes to the slot of the entry that
takes its tag, or to the captured records; a slot that no record reached gets the default of its
entry, or is missing when the entry is required. How deep messages may nest is bounded by the
reader's configuration.
-/

namespace ProtoWire

open Reader

/-- Reads a value, with `body` reading the body of a message type. -/
def ValueType.read (body : String → ReaderM Message) : ValueType → ReaderM Value
  | .scalar type => return .scalar (← type.read)
  | .enumeration schema => return .enumeration (schema.ofNumber (← readVarint32).toInt32)
  | .message name => return .message (← readMessage (body name))
  | .option inner => return .present (← inner.read body)
  | .converted _ wire => return .reference .wire (← wire.read body)

/-- The tag of the key in a map entry. -/
def mapKeyTag (key : ScalarType) : UInt32 := Tag.make 1 key.wireType

/-- The tag of the value in a map entry. -/
def mapValueTag (value : ValueType) : UInt32 := Tag.make 2 value.wireType

/-- Reads one record of a map entry. Records other than key and value are passed over. -/
def readMapRecord (body : String → ReaderM Message) (key : ScalarType) (value : ValueType)
    (tag : UInt32) (found : Option Scalar × Option Value) :
    ReaderM (Option Scalar × Option Value) := do
  if tag = mapKeyTag key then return (some (← key.read), found.2)
  else if tag = mapValueTag value then return (found.1, some (← value.read body))
  else
    skipField tag
    return found

/-- Reads a map entry. The last key and the last value count, and one that is missing takes its
default. -/
def readMapEntry (body : String → ReaderM Message) (key : ScalarType) (value : ValueType)
    (default : Value) : ReaderM (Scalar × Value) := do
  pushLimit (← readLength)
  let found ← readToLimit (readMapRecord body key value) (none, none)
  popLimit
  return (found.1.getD key.zero, found.2.getD default)

/-- Reads the member of a oneof that has the given tag; for any other tag nothing is read. -/
def OneofSchema.read (body : String → ReaderM Message) (schema : OneofSchema) (tag : UInt32) :
    ReaderM (Option (Nat × Value)) := do
  match schema.memberFor? tag with
  | none => return none
  | some place =>
      match schema.members[place]? with
      | none => return none
      | some member => return some (place, ← member.type.read body)

namespace Content

/-- The elements gathered so far for a repeated field. -/
def elements : Option Content → List Value
  | some (.repeated values) => values
  | _ => []

/-- The entries gathered so far for a map. -/
def mapEntries : Option Content → List (Scalar × Value)
  | some (.mapping entries) => entries
  | _ => []

end Content

/-- Reads one record of an entry into its slot: singular values and oneof members replace, elements
are appended, map entries are inserted. A value that a map entry lacks takes the default of its
type; where none is known, as of a message type with a required oneof, `.absent` stands in for
it. -/
def Entry.readRecord (catalog : Catalog) (body : String → ReaderM Message) (tag : UInt32) :
    Entry → Option Content → ReaderM (Option Content)
  | .singular _ _ type _ _, _ => return some (.singular (← type.read body))
  | .repeated _ _ element _, slot => do
      let values ← readRepeated element.wireType (element.read body)
      return some (.repeated (Content.elements slot ++ values))
  | .map _ _ key value _, slot => do
      let default := (catalog.default? value).getD .absent
      let entry ← readMapEntry body key value default
      return some (.mapping (insertEntry entry.1 entry.2 (Content.mapEntries slot)))
  | .oneof _ schema _, slot => do
      match ← schema.read body tag with
      | some (place, value) => return some (.chosen place value)
      | none => return slot

/-- What the records read so far amount to: a slot for each entry, and the captured records. -/
structure Gathered where
  slots : List (Option Content)
  unknown : UnknownFieldSet

/-- Reads one record of a message. -/
def MessageSchema.readRecord (catalog : Catalog) (body : String → ReaderM Message)
    (schema : MessageSchema) (tag : UInt32) (gathered : Gathered) : ReaderM Gathered := do
  match schema.entryFor? tag with
  | some place =>
      match schema.entries[place]? with
      | some entry =>
          let slot ← entry.readRecord catalog body tag (gathered.slots[place]?.getD none)
          return { gathered with slots := gathered.slots.set place slot }
      | none => return gathered
  | none =>
      if schema.keepsUnknown then
        return { gathered with unknown := gathered.unknown.add (← readUnknown tag) }
      else
        skipField tag
        return gathered

/-- The content of an entry once all records are read. A singular field that none was read of takes
the default of its type; where none is known, as of a message type with a required oneof, `.absent`
stands in for it. -/
def Entry.finish (catalog : Catalog) : Entry → Option Content → Except DecodeError Content
  | _, some content => .ok content
  | .singular name _ type _ nonNull, none =>
      if nonNull then .error (.missingRequiredField name)
      else .ok (.singular ((catalog.default? type).getD .absent))
  | .repeated .., none => .ok (.repeated [])
  | .map .., none => .ok (.mapping [])
  | .oneof name _ required, none =>
      if required then .error (.missingRequiredField name) else .ok .unset

/-- The contents of all entries, or the first entry in order of declaration that is missing. -/
def finishEntries (catalog : Catalog) :
    List Entry → List (Option Content) → Except DecodeError (List Content)
  | [], _ => .ok []
  | entry :: entries, slots => do
      let content ← entry.finish catalog (slots.head?.getD none)
      return content :: (← finishEntries catalog entries slots.tail)

/-- Reads a message body up to the innermost end. -/
def MessageSchema.readBody (catalog : Catalog) (body : String → ReaderM Message)
    (schema : MessageSchema) : ReaderM Message := do
  let gathered ← readToLimit (schema.readRecord catalog body)
    ⟨schema.entries.map fun _ => none, .empty⟩
  match finishEntries catalog schema.entries gathered.slots with
  | .ok contents => return .mk contents gathered.unknown .empty
  | .error error => throw error

namespace Catalog

/-- Reads the body of a message type with at most `levels` messages nested inside. A reader never
asks for more, as it refuses to go deeper than its recursion limit. -/
def readBodyWithin (catalog : Catalog) : (levels : Nat) → String → ReaderM Message
  | 0, name => (catalog.schema name).readBody catalog fun _ => do
      throw (.recursionLimitExceeded (← get).config.recursionLimit)
  | levels + 1, name => (catalog.schema name).readBody catalog (catalog.readBodyWithin levels)

/-- Reads the body of a message type up to the innermost end. -/
def readBody (catalog : Catalog) (name : String) : ReaderM Message := do
  let reader ← get
  catalog.readBodyWithin (reader.config.recursionLimit - reader.depth) name

/-- Reads a value of a value type. -/
def readValue (catalog : Catalog) (type : ValueType) : ReaderM Value := type.read catalog.readBody

/-- Reads a length and a message of a message type. -/
def readMessage (catalog : Catalog) (name : String) : ReaderM Message :=
  Reader.readMessage (catalog.readBody name)

/-- The outcome of a read on a whole byte string. -/
def decodeWith (read : ReaderM α) (bytes : Bytes) (config : ReaderConfig) :
    Except DecodeError α :=
  match read (.ofBytes bytes config) with
  | .ok value _ => .ok value
  | .error error _ => .error error

/-- Decodes a byte string as one message. -/
def decode (catalog : Catalog) (name : String) (bytes : Bytes) (config : ReaderConfig := {}) :
    Except DecodeError Message :=
  decodeWith (catalog.readBody name) bytes config

/-- Decodes the message after the length in front of a byte string; what follows is ignored. -/
def decodeDelimited (catalog : Catalog) (name : String) (bytes : Bytes)
    (config : ReaderConfig := {}) : Except DecodeError Message :=
  decodeWith (catalog.readMessage name) bytes config

end Catalog

end ProtoWire
