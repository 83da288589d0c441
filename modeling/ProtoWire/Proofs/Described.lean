import ProtoWire.Message.Encode
import ProtoWire.Proofs.Lists
import ProtoWire.Proofs.Missing
import ProtoWire.Proofs.Slots

/-! # What a descriptor tells of the wire

The descriptor of a message type and its codec are made from the same entries, each in its own way.
They agree all the same: a record goes to the field that the descriptor finds under its tag, every
record is written under the tag of its field and in the order of the fields, and the fields that
decoding cannot do without are those that the descriptor marks.
-/

namespace ProtoWire

/-! ## Tags
-/

theorem ValueType.wireType_fieldType (type : ValueType) :
    type.fieldType.wireType = type.wireType := by
  induction type with
  | scalar | enumeration | message => rfl
  | option inner ih => exact ih
  | converted name wire ih => exact ih

theorem FieldType.wireType_of_not_isPackable {type : FieldType} (htype : type.isPackable = false) :
    type.wireType = .len := by
  cases type with
  | scalar type => cases type <;> first | rfl | cases htype
  | enumeration => cases htype
  | message => rfl

theorem Member.acceptedTags_descriptor (member : Member) :
    member.descriptor.acceptedTags = [member.tag] := by
  simp [descriptor, tag, StandardField.acceptedTags, StandardField.elementTag,
    ValueType.wireType_fieldType]

/-- An entry takes the records that are read under a tag of one of its fields. -/
theorem Entry.accepts_iff (dialect : Dialect) (entry : Entry) (tag : UInt32) :
    entry.accepts tag = true ↔
      ∃ field ∈ (entry.descriptor dialect).members, tag ∈ field.acceptedTags := by
  cases entry with
  | singular name number type optional nonNull =>
      simp [accepts, descriptor, EntryDescriptor.members, StandardField.acceptedTags,
        StandardField.elementTag, ValueType.wireType_fieldType]
  | repeated name number element packed =>
      cases hpackable : element.fieldType.isPackable with
      | true =>
          simp [accepts, descriptor, EntryDescriptor.members, StandardField.acceptedTags,
            StandardField.elementTag, ValueType.wireType_fieldType, hpackable]
      | false =>
          have hwire := FieldType.wireType_of_not_isPackable hpackable
          rw [ValueType.wireType_fieldType] at hwire
          simp [accepts, descriptor, EntryDescriptor.members, StandardField.acceptedTags,
            StandardField.elementTag, ValueType.wireType_fieldType, hpackable, hwire]
  | map name number key value order =>
      simp [accepts, descriptor, EntryDescriptor.members, StandardField.acceptedTags,
        StandardField.elementTag, FieldType.isPackable]
  | oneof name schema required =>
      rw [accepts, OneofSchema.memberFor?, List.findIdx?_isSome, List.any_eq_true]
      simp only [descriptor, EntryDescriptor.members, OneofSchema.descriptors, List.mem_map,
        exists_exists_and_eq_and, Member.acceptedTags_descriptor, List.mem_singleton, beq_iff_eq]
      exact exists_congr fun member => and_congr_right fun _ => eq_comm

namespace MessageSchema

variable {schema : MessageSchema} {tag : UInt32}

theorem standardFields_eq (schema : MessageSchema) : schema.descriptor.standardFields =
    schema.entries.flatMap fun entry => (entry.descriptor schema.dialect).members := by
  simp only [MessageDescriptor.standardFields, descriptor, List.flatMap_map]

theorem mem_standardFields {field : StandardField} :
    field ∈ schema.descriptor.standardFields ↔
      ∃ entry ∈ schema.entries, field ∈ (entry.descriptor schema.dialect).members := by
  rw [standardFields_eq, List.mem_flatMap]

theorem Numbered.findByTag_eq_some_iff (hnumbered : schema.Numbered) {field : StandardField} :
    schema.descriptor.findByTag? tag = some field ↔
      field ∈ schema.descriptor.standardFields ∧ tag ∈ field.acceptedTags :=
  MessageDescriptor.findByTag_eq_some_iff hnumbered.1
    ((MessageDescriptor.duplicateNumber_eq_none_iff _).mp hnumbered.2)

/-- An entry takes exactly the records of which the descriptor finds the field among its own. -/
theorem Numbered.accepts_iff (hnumbered : schema.Numbered) {entry : Entry}
    (hentry : entry ∈ schema.entries) :
    entry.accepts tag = true ↔ ∃ field, schema.descriptor.findByTag? tag = some field ∧
      field ∈ (entry.descriptor schema.dialect).members := by
  rw [Entry.accepts_iff schema.dialect]
  constructor
  · rintro ⟨field, hfield, htag⟩
    have hmember := mem_standardFields.mpr ⟨entry, hentry, hfield⟩
    exact ⟨field, hnumbered.findByTag_eq_some_iff.mpr ⟨hmember, htag⟩, hfield⟩
  · rintro ⟨field, hfound, hfield⟩
    exact ⟨field, hfield, (hnumbered.findByTag_eq_some_iff.mp hfound).2⟩

theorem Numbered.findByTag_eq_none_iff (hnumbered : schema.Numbered) :
    schema.descriptor.findByTag? tag = none ↔
      ∀ entry ∈ schema.entries, entry.accepts tag = false := by
  constructor
  · intro hnone entry hentry
    by_contra htaken
    obtain ⟨field, hfound, -⟩ := (hnumbered.accepts_iff hentry).mp (by simpa using htaken)
    rw [hnone] at hfound
    cases hfound
  · intro hnone
    by_contra hsome
    obtain ⟨field, hfound⟩ := Option.ne_none_iff_exists'.mp hsome
    have hfield := (hnumbered.findByTag_eq_some_iff.mp hfound).1
    obtain ⟨entry, hentry, hmember⟩ := mem_standardFields.mp hfield
    have htaken := (hnumbered.accepts_iff hentry).mpr ⟨field, hfound, hmember⟩
    rw [hnone entry hentry] at htaken
    cases htaken

end MessageSchema

/-! ## Decoding -/

/-- The place among the fields of an entry of the one that a content is of. -/
def Content.member : Content → Nat
  | .chosen place _ => place
  | _ => 0

/-- The field of a message type by the places of its entry and of the field in it. -/
def MessageSchema.fieldAt? (schema : MessageSchema) (place position : Nat) :
    Option StandardField :=
  schema.descriptor.entries[place]?.bind (·.members[position]?)

/-- Whether some slot holds a content of the field. -/
def Gathered.Holds (schema : MessageSchema) (gathered : Gathered) (field : StandardField) : Prop :=
  ∃ place content, gathered.slots[place]? = some (some content) ∧
    schema.fieldAt? place content.member = some field

namespace Reader

variable {catalog : Catalog} {body : String → ReaderM Message} {tag : UInt32}
  {reader last : Reader}

/-- A record that an entry takes leaves a content of the field that is read under its tag. -/
theorem readEntry_stores (dialect : Dialect) {entry : Entry} {slot slot' : Option Content}
    (haccepts : entry.accepts tag = true)
    (hread : entry.readRecord catalog body tag slot reader = .ok slot' last) :
    ∃ content field, slot' = some content ∧
      (entry.descriptor dialect).members[content.member]? = some field ∧
      tag ∈ field.acceptedTags := by
  obtain ⟨field, hfield, htag⟩ := (Entry.accepts_iff dialect entry tag).mp haccepts
  cases entry with
  | singular name number type optional nonNull =>
      obtain ⟨value, middle, -, hstored⟩ := ok_of_bind hread
      cases hstored
      cases List.mem_singleton.mp hfield
      exact ⟨.singular value, _, rfl, rfl, htag⟩
  | repeated name number element packed =>
      obtain ⟨values, middle, -, hstored⟩ := ok_of_bind hread
      cases hstored
      cases List.mem_singleton.mp hfield
      exact ⟨.repeated _, _, rfl, rfl, htag⟩
  | map name number key value order =>
      obtain ⟨entry, middle, -, hstored⟩ := ok_of_bind hread
      cases hstored
      cases List.mem_singleton.mp hfield
      exact ⟨.mapping _, _, rfl, rfl, htag⟩
  | oneof name schema required =>
      obtain ⟨place, hplace⟩ := Option.isSome_iff_exists.mp haccepts
      obtain ⟨hlt, htagged, -⟩ := List.findIdx?_eq_some_iff_getElem.mp hplace
      have hmember : schema.members[place]? = some schema.members[place] :=
        List.getElem?_eq_getElem hlt
      obtain ⟨choice, middle, hchoice, hstored⟩ := ok_of_bind hread
      rw [OneofSchema.read, hplace] at hchoice
      dsimp only at hchoice
      rw [hmember] at hchoice
      obtain ⟨value, middle', -, hchosen⟩ := ok_of_bind hchoice
      cases hchosen
      cases hstored
      refine ⟨.chosen place value, schema.members[place].descriptor, rfl, ?_, ?_⟩
      · simp only [Entry.descriptor, EntryDescriptor.members, OneofSchema.descriptors,
          Content.member, List.getElem?_map, hmember, Option.map_some]
      · rw [Member.acceptedTags_descriptor]
        exact List.mem_singleton.mpr (eq_of_beq htagged).symm

theorem readUnknown_tag {record : UnknownField} (hread : readUnknown tag reader = .ok record last) :
    record.tag = tag := (Tag.split_eq_ok_iff.mp (split_of_readUnknown hread)).2.symm

end Reader

/-- What becomes of a record by its tag: the field that the descriptor finds gets a new content, or
else the record is kept or passed over. -/
def MessageSchema.Stores (schema : MessageSchema) (tag : UInt32) (before after : Gathered) : Prop :=
  match schema.descriptor.findByTag? tag with
  | some field => ∃ place content, schema.fieldAt? place content.member = some field ∧
      after = { before with slots := before.slots.set place (some content) }
  | none =>
      if schema.keepsUnknown then
        ∃ record, record.tag = tag ∧ after = { before with unknown := before.unknown.add record }
      else after = before

namespace MessageSchema

variable {catalog : Catalog} {schema : MessageSchema} {tag : UInt32} {before after : Gathered}

/-- A record is stored in the field that the descriptor finds under its tag. -/
theorem Numbered.stores (hnumbered : schema.Numbered) {body : String → ReaderM Message}
    {reader last : Reader}
    (hread : schema.readRecord catalog body tag before reader = .ok after last) :
    schema.Stores tag before after := by
  rw [readRecord] at hread
  cases hplace : schema.entryFor? tag with
  | some place =>
      obtain ⟨entry, hentry, haccepts⟩ := accepts_of_entryFor hplace
      rw [hplace] at hread
      dsimp only at hread
      rw [hentry] at hread
      obtain ⟨slot, middle, hslot, hstored⟩ := ok_of_bind hread
      cases hstored
      obtain ⟨content, field, rfl, hfield, htag⟩ :=
        Reader.readEntry_stores schema.dialect haccepts hslot
      have hmember := mem_standardFields.mpr
        ⟨entry, List.mem_of_getElem? hentry, List.mem_of_getElem? hfield⟩
      rw [Stores, hnumbered.findByTag_eq_some_iff.mpr ⟨hmember, htag⟩]
      refine ⟨place, content, ?_, rfl⟩
      rw [fieldAt?, descriptor, List.getElem?_map, hentry]
      exact hfield
  | none =>
      rw [Stores, hnumbered.findByTag_eq_none_iff.mpr ((schema.entryFor_eq_none_iff tag).mp hplace)]
      rw [hplace] at hread
      dsimp only at hread
      split at hread
      next hkeeps =>
        obtain ⟨record, middle, hrecord, hstored⟩ := ok_of_bind hread
        cases hstored
        rw [if_pos hkeeps]
        exact ⟨record, Reader.readUnknown_tag hrecord, rfl⟩
      next hkeeps =>
        obtain ⟨-, middle, hskipped, hstored⟩ := ok_of_bind hread
        cases hstored
        rw [if_neg hkeeps]

/-- A field that holds nothing yet comes to hold a content exactly if the descriptor finds it. -/
theorem Stores.holds_iff (hstores : schema.Stores tag before after)
    (hlength : before.slots.length = schema.entries.length) {field : StandardField}
    (hempty : ¬ before.Holds schema field) :
    after.Holds schema field ↔ schema.descriptor.findByTag? tag = some field := by
  rw [Stores] at hstores
  cases hfound : schema.descriptor.findByTag? tag with
  | some found =>
      rw [hfound] at hstores
      obtain ⟨place, content, hfield, rfl⟩ := hstores
      constructor
      · rintro ⟨place', content', hslot, hfield'⟩
        by_cases hplace : place = place'
        · subst hplace
          obtain ⟨_, hcontent⟩ := List.getElem?_eq_some_iff.mp hslot
          rw [List.getElem_set_self] at hcontent
          cases hcontent
          exact hfield.symm.trans hfield'
        · rw [List.getElem?_set_ne hplace] at hslot
          exact absurd ⟨place', content', hslot, hfield'⟩ hempty
      · intro hsame
        cases hsame
        have hplace : place < before.slots.length := by
          rw [hlength]
          by_contra hpast
          rw [fieldAt?, descriptor, List.getElem?_map,
            List.getElem?_eq_none (not_lt.mp hpast)] at hfield
          cases hfield
        exact ⟨place, content, List.getElem?_set_self hplace, hfield⟩
  | none =>
      rw [hfound] at hstores
      have hslots : after.slots = before.slots := by
        dsimp only at hstores
        split at hstores
        · obtain ⟨record, -, rfl⟩ := hstores
          rfl
        · rw [hstores]
      refine iff_of_false (fun hholds => hempty ?_) (Option.some_ne_none field).symm
      rwa [Gathered.Holds, hslots] at hholds

/-- The records of the fields that make up an entry, as the descriptor finds them by their tags. -/
def recordsOf (schema : MessageSchema) (entry : Entry) (records : List UnknownField) :
    List UnknownField :=
  records.filter fun record => (schema.descriptor.findByTag? record.tag).any
    ((entry.descriptor schema.dialect).members.contains ·)

/-- The records under whose tags the descriptor finds no field. -/
def undescribed (schema : MessageSchema) (records : List UnknownField) : List UnknownField :=
  records.filter fun record => (schema.descriptor.findByTag? record.tag).isNone

theorem Numbered.own_eq (hnumbered : schema.Numbered) {entry : Entry}
    (hentry : entry ∈ schema.entries) (records : List UnknownField) :
    entry.own records = schema.recordsOf entry records := by
  refine List.filter_congr fun record _ => ?_
  rw [Bool.eq_iff_iff, hnumbered.accepts_iff hentry, Option.any_eq_true]
  simp only [List.contains_iff_mem]

theorem Numbered.leftover_eq (hnumbered : schema.Numbered) (records : List UnknownField) :
    schema.leftover records = schema.undescribed records := by
  refine List.filter_congr fun record _ => ?_
  rw [Bool.eq_iff_iff, Option.isNone_iff_eq_none, hnumbered.findByTag_eq_none_iff,
    Bool.not_eq_true', List.any_eq_false]
  simp only [Bool.not_eq_true]

end MessageSchema

/-- Every entry of a message decoded is made of the records whose fields the descriptor counts to
it, and what is kept are the records of no field. -/
theorem Catalog.decode_described {catalog : Catalog} (hnumbered : catalog.Numbered) {name : String}
    {bytes : Bytes} {config : ReaderConfig} {message : Message}
    (hdecode : catalog.decode name bytes config = .ok message) :
    let schema := catalog.schema name
    ∃ records, SplitsInto bytes records ∧
      message.unknown.fields = (if schema.keepsUnknown then schema.undescribed records else []) ∧
      schema.entries.length = message.contents.length ∧
      ∀ pair ∈ schema.entries.zip message.contents,
        pair.1.assemble? catalog (catalog.nested? config.recursionLimit)
          (schema.recordsOf pair.1 records) = some pair.2 := by
  intro schema
  have hschema : schema.Numbered := hnumbered.schema name
  rw [decode_eq_ok_iff hnumbered, message_eq, Option.bind_eq_some_iff] at hdecode
  obtain ⟨records, hsplit, hassembled⟩ := hdecode
  rw [MessageSchema.assemble?] at hassembled
  simp only [Option.bind_eq_bind, Option.bind_eq_some_iff] at hassembled
  obtain ⟨contents, hcontents, hmade⟩ := hassembled
  cases hmade
  obtain ⟨hlength, hpairs⟩ := zip_of_mapM hcontents
  refine ⟨records, splitsInto_iff.mpr hsplit, ?_, hlength, fun pair hpair => ?_⟩
  · rw [← hschema.leftover_eq]
    rfl
  · rw [← hschema.own_eq (List.of_mem_zip hpair).1]
    exact hpairs pair hpair

/-! ## Encoding -/

/-- The bytes of the records of a field with the given payloads. -/
def StandardField.write (field : StandardField) (payloads : List Bytes) : Bytes :=
  payloads.flatMap (Tag.encode field.tag ++ ·)

/-- The payloads of the records that a content is written as. -/
def Content.payloads (catalog : Catalog) (pass : Pass) (dialect : Dialect) :
    Entry → Content → List Bytes
  | .singular _ _ type _ nonNull, .singular value =>
      if nonNull || !value.isDefault catalog pass type then [value.write catalog pass type] else []
  | .repeated _ _ element packed, .repeated values =>
      if values.isEmpty then []
      else if dialect.packs element.fieldType packed then
        [encodeLength
            (packedRunSize element values.length (valuesSize catalog pass element values))
          ++ writePayloads catalog pass element values]
      else values.map (·.write catalog pass element)
  | .map _ _ _ type _, .mapping entries => entries.map fun (key, value) =>
      encodeLength (mapEntrySize key.size (value.size catalog pass type))
        ++ (Tag.encodeKey 1 key.type.wireType ++ key.encode
        ++ (Tag.encodeKey 2 type.wireType ++ value.write catalog pass type))
  | .oneof _ schema _, .chosen place value =>
      match schema.members[place]? with
      | some member => [value.write catalog pass member.type]
      | none => []
  | _, _ => []

/-- The fields that contents are of, in their order, each with the payloads of its records. -/
def writtenFields (catalog : Catalog) (pass : Pass) (dialect : Dialect) (entries : List Entry)
    (contents : List Content) : List (StandardField × List Bytes) :=
  (entries.zip contents).filterMap fun pair =>
    (pair.1.descriptor dialect).members[pair.2.member]?.map
      (·, pair.2.payloads catalog pass dialect pair.1)

section Writing

variable (catalog : Catalog) (pass : Pass) (dialect : Dialect)

theorem writeElements_flatMap (number : UInt32) (type : ValueType) (values : List Value) :
    writeElements catalog pass number type values = values.flatMap fun value =>
      Tag.encodeKey number type.wireType ++ value.write catalog pass type := by
  induction values with
  | nil => rfl
  | cons value values ih => rw [writeElements, ih, List.flatMap_cons, List.append_assoc]

theorem writeMapEntries_flatMap (number : UInt32) (key : ScalarType) (type : ValueType)
    (entries : List (Scalar × Value)) (name : String) (order : MapOrder) :
    writeMapEntries catalog pass number type entries =
      (Content.payloads catalog pass dialect (.map name number key type order)
        (.mapping entries)).flatMap (Tag.encodeKey number .len ++ ·) := by
  induction entries with
  | nil => rfl
  | cons entry entries ih =>
      rw [writeMapEntries, ih]
      simp only [Content.payloads, List.map_cons, List.flatMap_cons, List.append_assoc]

/-- A content is written as the records of the field it is of. -/
theorem Content.write_eq (entry : Entry) (content : Content) :
    content.write catalog pass dialect entry =
      ((entry.descriptor dialect).members[content.member]?.elim [] fun field =>
        field.write (content.payloads catalog pass dialect entry)) := by
  -- What is not the content of an entry of its kind has neither bytes nor payloads.
  have hnothing : ∀ field? : Option StandardField, [] = field?.elim [] (·.write []) := by
    rintro (_ | field) <;> rfl
  cases entry with
  | singular name number type optional nonNull =>
      cases content with
      | singular value =>
          simp only [write, payloads]
          split
          · simp [Entry.descriptor, EntryDescriptor.members, member, StandardField.write,
              StandardField.tag, ValueType.wireType_fieldType, Tag.encodeKey]
          · exact hnothing _
      | repeated | mapping | unset | chosen => exact hnothing _
  | repeated name number element packed =>
      cases content with
      | repeated values =>
          simp only [write, payloads]
          split
          · exact hnothing _
          · split
            next hpacks =>
              simp [Entry.descriptor, EntryDescriptor.members, member, StandardField.write,
                StandardField.tag, hpacks, Tag.encodeKey]
            next hpacks =>
              simp [Entry.descriptor, EntryDescriptor.members, member, StandardField.write,
                StandardField.tag, hpacks, Tag.encodeKey, ValueType.wireType_fieldType,
                writeElements_flatMap, List.flatMap_map]
      | singular | mapping | unset | chosen => exact hnothing _
  | map name number key type order =>
      cases content with
      | mapping entries =>
          rw [write,
            writeMapEntries_flatMap catalog pass dialect number key type entries name order]
          simp [Entry.descriptor, EntryDescriptor.members, member, StandardField.write,
            StandardField.tag, Tag.encodeKey]
      | singular | repeated | unset | chosen => exact hnothing _
  | oneof name schema required =>
      cases content with
      | chosen place value =>
          cases hmember : schema.members[place]? with
          | none =>
              simp only [write, payloads, hmember]
              exact hnothing _
          | some found =>
              simp [write, payloads, hmember, Entry.descriptor, EntryDescriptor.members, member,
                OneofSchema.descriptors, Member.descriptor, StandardField.write, StandardField.tag,
                Tag.encodeKey, ValueType.wireType_fieldType]
      | singular | repeated | mapping | unset => exact hnothing _

/-- Contents are written as the records of the fields they are of. -/
theorem writeContents_flatMap (entries : List Entry) (contents : List Content) :
    writeContents catalog pass dialect entries contents =
      (writtenFields catalog pass dialect entries contents).flatMap
        fun group => group.1.write group.2 := by
  induction entries generalizing contents with
  | nil => cases contents <;> simp [writeContents, writtenFields]
  | cons entry entries ih =>
      cases contents with
      | nil => simp [writeContents, writtenFields]
      | cons content contents =>
          rw [writeContents, ih, Content.write_eq, writtenFields, writtenFields, List.zip_cons_cons,
            List.filterMap_cons]
          cases (entry.descriptor dialect).members[content.member]? with
          | none => simp
          | some field => simp

/-- Fields are written in the order of their descriptors, none twice. -/
theorem writtenFields_sublist (entries : List Entry) (contents : List Content) :
    ((writtenFields catalog pass dialect entries contents).map Prod.fst).Sublist
      (entries.flatMap fun entry => (entry.descriptor dialect).members) := by
  induction entries generalizing contents with
  | nil => exact List.Sublist.refl []
  | cons entry entries ih =>
      cases contents with
      | nil => exact List.nil_sublist _
      | cons content contents =>
          rw [writtenFields, List.zip_cons_cons, List.filterMap_cons, List.flatMap_cons]
          dsimp only
          cases hfield : (entry.descriptor dialect).members[content.member]? with
          | none => exact (ih contents).trans (List.sublist_append_right _ _)
          | some field =>
              exact (List.singleton_sublist.mpr (List.mem_of_getElem? hfield)).append (ih contents)

end Writing

/-- The tag that a field of an entry is written with is one that it is read under. -/
theorem Entry.tag_mem_acceptedTags {dialect : Dialect} {entry : Entry} {field : StandardField}
    (hfield : field ∈ (entry.descriptor dialect).members) : field.tag ∈ field.acceptedTags := by
  cases entry with
  | singular | map =>
      cases List.mem_singleton.mp hfield
      simp [StandardField.tag, StandardField.acceptedTags, StandardField.elementTag,
        FieldType.isPackable]
  | repeated name number element packed =>
      cases List.mem_singleton.mp hfield
      rw [StandardField.acceptedTags, StandardField.tag, StandardField.elementTag, Dialect.packs]
      cases hpackable : element.fieldType.isPackable with
      | false => simp
      | true => cases packed.getD (dialect == .proto3) <;> simp
  | oneof name schema required =>
      obtain ⟨member, -, rfl⟩ := List.mem_map.mp hfield
      simp [StandardField.tag, StandardField.acceptedTags, StandardField.elementTag,
        Member.descriptor]

namespace Catalog

/-- A message type is decoded and encoded as its descriptor says. A record is stored in the field
that the descriptor finds under its tag, and it is kept or passed over where there is none. What
is written are the records of the fields, under their tags and in their order, and then the records
kept. A field is told as missing only if it is marked as never null or is a required oneof, of the
message type itself or of one whose messages lie in it. -/
theorem codec_as_described {catalog : Catalog} (hnumbered : catalog.Numbered) (name : String) :
    let schema := catalog.schema name
    let descriptor := schema.descriptor
    (∀ body tag before reader after last,
      schema.readRecord catalog body tag before reader = .ok after last →
        schema.Stores tag before after ∧
          (before.slots.length = schema.entries.length →
            ∀ field, ¬ before.Holds schema field →
              (after.Holds schema field ↔ descriptor.findByTag? tag = some field))) ∧
    (∀ bytes config message, catalog.decode name bytes config = .ok message →
      ∃ records, SplitsInto bytes records ∧
        message.unknown.fields =
          (if schema.keepsUnknown then schema.undescribed records else []) ∧
        schema.entries.length = message.contents.length ∧
        ∀ pair ∈ schema.entries.zip message.contents,
          pair.1.assemble? catalog (catalog.nested? config.recursionLimit)
            (schema.recordsOf pair.1 records) = some pair.2) ∧
    (∀ pass message,
      let written := writtenFields catalog pass schema.dialect schema.entries message.contents
      catalog.writeBody name pass message =
          (written.flatMap fun group => group.1.write group.2) ++ message.unknown.encode ∧
        (written.map Prod.fst).Sublist descriptor.standardFields) ∧
    (∀ field ∈ descriptor.standardFields, descriptor.findByTag? field.tag = some field) ∧
    (∀ reader field after,
      catalog.readBody name reader = .error (.missingRequiredField field) after →
        ∃ inner, catalog.Holds name inner ∧ (catalog.schema inner).descriptor.Requires field) ∧
    ∀ type : ValueType, type.wireType = type.fieldType.wireType := by
  intro schema descriptor
  have hschema : schema.Numbered := hnumbered.schema name
  refine ⟨fun body tag before reader after last hread => ?_, fun bytes config message hdecode =>
    decode_described hnumbered hdecode, fun pass message => ?_, fun field hfield => ?_,
    Reader.misses_readBody catalog name, fun type => type.wireType_fieldType.symm⟩
  · have hstores := hschema.stores hread
    exact ⟨hstores, fun hlength field => hstores.holds_iff hlength⟩
  · obtain ⟨contents, unknown, cache⟩ := message
    refine ⟨?_, ?_⟩
    · rw [writeBody, Message.writeBody, writeContents_flatMap]
      rfl
    · rw [MessageSchema.standardFields_eq]
      exact writtenFields_sublist catalog pass schema.dialect schema.entries contents
  · obtain ⟨entry, hentry, hmember⟩ := MessageSchema.mem_standardFields.mp hfield
    exact hschema.findByTag_eq_some_iff.mpr ⟨hfield, Entry.tag_mem_acceptedTags hmember⟩

/-- A command whose count is read into the slot of the action, a command without an action, and one
that is written. -/
theorem command_as_described :
    let messages : Catalog := ⟨[("Command", Samples.command), ("Inner", Samples.inner)]⟩
    let schema := messages.schema "Command"
    let before : Gathered := ⟨[none, none], .empty⟩
    let after : Gathered := ⟨[none, some (.chosen 0 (.scalar (.uint64 9)))], .empty⟩
    let message : Message :=
      .mk [.singular (.scalar (.uint32 7)), .chosen 0 (.scalar (.uint64 9))] .empty .empty
    messages.Numbered ∧
      (∃ last, schema.readRecord messages messages.readBody 8 before (.ofBytes [9] {}) =
        .ok after last) ∧
      (∃ field, schema.descriptor.findByTag? 8 = some field ∧ after.Holds schema field) ∧
      (∃ inner, messages.Holds "Command" inner ∧
        (messages.schema inner).descriptor.Requires "action") ∧
      messages.writeBody "Command" none message = [40, 7, 8, 9] := by
  intro messages schema before after message
  have hnumbered : messages.Numbered := by decide
  obtain ⟨hstores, -, hwritten, -, hmissing, -⟩ := codec_as_described hnumbered "Command"
  have hread : schema.readRecord messages messages.readBody 8 before (.ofBytes [9] {}) =
      .ok after ((Reader.ofBytes [9] {}).skip 1) := by
    cbv
  have hmissed : messages.readBody "Command" (.ofBytes [] {}) =
      .error (.missingRequiredField "action") (.ofBytes [] {}) := by
    cbv
  have hempty : ∀ field, ¬ before.Holds schema field := by
    rintro field ⟨place, content, hslot, -⟩
    rcases place with _ | _ | place <;> cases hslot
  have hfound : schema.descriptor.findByTag? 8 =
      some { number := 1, name := "Count", type := .scalar .uint64 } := by
    decide
  have hholds := ((hstores _ _ _ _ _ _ hread).2 rfl _ (hempty _)).mpr hfound
  refine ⟨hnumbered, ⟨_, hread⟩, ⟨_, hfound, hholds⟩, hmissing _ _ _ hmissed, ?_⟩
  rw [(hwritten none message).1]
  cbv

end Catalog

end ProtoWire
