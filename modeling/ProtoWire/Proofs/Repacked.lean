import ProtoWire.Proofs.Known
import ProtoWire.Proofs.RoundTrip

/-! # Types that pack differently

Whether the elements of a field are written as one packed run is told by the dialect of the message
type and by an option of the field. Types that differ in nothing else read the same messages from
the same bytes, and each reads what the other writes.
-/

namespace ProtoWire

/-! ## Types without packing -/

/-- The entry without the option that tells whether it is packed. -/
def Entry.withoutPacking : Entry → Entry
  | .repeated name number element _ => .repeated name number element none
  | entry => entry

/-- The message type without what tells whether fields are packed. -/
def MessageSchema.withoutPacking (schema : MessageSchema) : MessageSchema :=
  { schema with dialect := .proto3, entries := schema.entries.map (·.withoutPacking) }

/-- The message types without what tells whether fields are packed. -/
def Catalog.withoutPacking (catalog : Catalog) : Catalog :=
  catalog.alter MessageSchema.withoutPacking

/-- Two message types read and keep the same, whatever they pack. -/
structure MessageSchema.SameButPacking (schema other : MessageSchema) : Prop where
  entries_eq : other.entries.map (·.withoutPacking) = schema.entries.map (·.withoutPacking)
  keepsUnknown_eq : other.keepsUnknown = schema.keepsUnknown

namespace Entry

theorem accepts_withoutPacking (entry : Entry) (tag : UInt32) :
    entry.withoutPacking.accepts tag = entry.accepts tag := by
  cases entry <;> rfl

theorem isField_withoutPacking (entry : Entry) : entry.withoutPacking.isField = entry.isField := by
  cases entry <;> rfl

theorem numbers_withoutPacking (entry : Entry) : entry.withoutPacking.numbers = entry.numbers := by
  cases entry <;> rfl

theorem optionsSingular_withoutPacking (entry : Entry) :
    entry.withoutPacking.optionsSingular = entry.optionsSingular := by
  cases entry <;> rfl

theorem defaulted_withoutPacking (catalog : Catalog) (entry : Entry) :
    entry.withoutPacking.defaulted catalog = entry.defaulted catalog := by
  cases entry <;> rfl

theorem default_withoutPacking (message : String → Option Message) (entry : Entry) :
    entry.withoutPacking.default? message = entry.default? message := by
  cases entry <;> rfl

theorem readRecord_withoutPacking (catalog : Catalog) (body : String → ReaderM Message)
    (tag : UInt32) (entry : Entry) (slot : Option Content) :
    entry.withoutPacking.readRecord catalog body tag slot =
      entry.readRecord catalog body tag slot := by
  cases entry <;> rfl

theorem finish_withoutPacking (catalog : Catalog) (entry : Entry) (slot : Option Content) :
    entry.withoutPacking.finish catalog slot = entry.finish catalog slot := by
  cases entry <;> cases slot <;> rfl

end Entry

/-! ## Reading -/

theorem finishEntries_withoutPacking (catalog : Catalog) (entries : List Entry)
    (slots : List (Option Content)) :
    finishEntries catalog (entries.map (·.withoutPacking)) slots =
      finishEntries catalog entries slots := by
  induction entries generalizing slots with
  | nil => rfl
  | cons entry entries ih =>
      rw [List.map_cons, finishEntries, finishEntries, entry.finish_withoutPacking, ih]

namespace MessageSchema

theorem entryFor_withoutPacking (schema : MessageSchema) (tag : UInt32) :
    schema.withoutPacking.entryFor? tag = schema.entryFor? tag := by
  simp only [entryFor?, withoutPacking, List.findIdx?_map, Function.comp_def,
    Entry.isField_withoutPacking, Entry.accepts_withoutPacking]

theorem readRecord_withoutPacking (catalog : Catalog) (body : String → ReaderM Message)
    (schema : MessageSchema) :
    schema.withoutPacking.readRecord catalog body = schema.readRecord catalog body := by
  funext tag gathered
  rw [readRecord, readRecord, entryFor_withoutPacking]
  cases schema.entryFor? tag with
  | none => rfl
  | some place =>
      dsimp only
      rw [withoutPacking, List.getElem?_map]
      cases schema.entries[place]? with
      | none => rfl
      | some entry =>
          dsimp only [Option.map_some]
          rw [entry.readRecord_withoutPacking]

end MessageSchema

namespace Catalog

variable {catalog : Catalog}

theorem schema_withoutPacking (catalog : Catalog) (name : String) :
    catalog.withoutPacking.schema name = (catalog.schema name).withoutPacking :=
  schema_alter (fun _ => rfl) catalog name

theorem default_withoutPacking (type : ValueType) :
    catalog.withoutPacking.default? type = catalog.default? type := by
  refine @default_alter MessageSchema.withoutPacking (fun _ => rfl) (fun schema message => ?_)
    catalog type
  simp only [MessageSchema.withoutPacking, List.mapM_map, Function.comp_def,
    Entry.default_withoutPacking]

theorem readBody_withoutPacking (schema : MessageSchema) (body : String → ReaderM Message) :
    schema.withoutPacking.readBody catalog.withoutPacking body = schema.readBody catalog body := by
  have hdefault := @default_withoutPacking catalog
  have hrecord : schema.withoutPacking.readRecord catalog.withoutPacking body =
      schema.readRecord catalog body := by
    rw [MessageSchema.readRecord_withoutPacking]
    funext tag gathered
    simp only [MessageSchema.readRecord, Entry.readRecord_of_defaults hdefault]
  rw [MessageSchema.readBody, MessageSchema.readBody, hrecord]
  simp only [finishEntries_of_defaults hdefault, MessageSchema.withoutPacking,
    finishEntries_withoutPacking, List.map_map]
  rfl

theorem decode_withoutPacking (name : String) (bytes : Bytes) (config : ReaderConfig) :
    catalog.withoutPacking.decode name bytes config = catalog.decode name bytes config :=
  decode_alter (fun _ => rfl) readBody_withoutPacking name bytes config

/-- Types that differ only in what they pack decode all bytes alike. -/
theorem decode_of_sameButPacking {other : Catalog}
    (hother : other.withoutPacking = catalog.withoutPacking) {name name' : String}
    (hsame : (catalog.schema name).SameButPacking (other.schema name')) (bytes : Bytes)
    (config : ReaderConfig) :
    other.decode name' bytes config = catalog.decode name bytes config := by
  have hschema : catalog.withoutPacking.schema name' = (other.schema name').withoutPacking := by
    rw [← hother, schema_withoutPacking]
  rw [← decode_withoutPacking, hother, ← @decode_withoutPacking catalog]
  refine decode_of_entries ?_ ?_ bytes config
  · rw [hschema, schema_withoutPacking]
    exact hsame.entries_eq
  · rw [hschema, schema_withoutPacking]
    exact hsame.keepsUnknown_eq

end Catalog

/-! ## What both types rely on -/

namespace MessageSchema

variable {schema other : MessageSchema}

theorem SameButPacking.of_withoutPacking (hother : other.withoutPacking = schema.withoutPacking) :
    schema.SameButPacking other :=
  have hkeeps := congrArg keepsUnknown hother
  ⟨congrArg entries hother, hkeeps⟩

theorem SameButPacking.symm (hsame : schema.SameButPacking other) : other.SameButPacking schema :=
  ⟨hsame.entries_eq.symm, hsame.keepsUnknown_eq.symm⟩

theorem SameButPacking.exists_entry (hsame : schema.SameButPacking other) {entry : Entry}
    (hentry : entry ∈ other.entries) :
    ∃ same ∈ schema.entries, same.withoutPacking = entry.withoutPacking := by
  have hmem := List.mem_map_of_mem (f := (·.withoutPacking)) hentry
  rw [hsame.entries_eq] at hmem
  exact List.mem_map.mp hmem

theorem SameButPacking.numbered (hsame : schema.SameButPacking other) (hnumbered : schema.Numbered) :
    other.Numbered := by
  have hnumbers : other.entries.flatMap (·.numbers) = schema.entries.flatMap (·.numbers) := by
    have hbare := congrArg (List.flatMap Entry.numbers) hsame.entries_eq
    simpa only [List.flatMap_map, Entry.numbers_withoutPacking] using hbare
  refine ⟨fun field hfield => ?_, ?_⟩
  · have hmem := List.mem_map_of_mem (f := (·.number)) hfield
    rw [numbers_eq, hnumbers] at hmem
    obtain ⟨entry, hentry, hnumber⟩ := List.mem_flatMap.mp hmem
    exact hnumbered.inRange hentry hnumber
  · rw [MessageDescriptor.duplicateNumber_eq_none_iff, numbers_eq, hnumbers]
    exact hnumbered.nodup

/-- Both types keep the same records apart from their entries. -/
theorem SameButPacking.unknownApart (hsame : schema.SameButPacking other) {message : Message}
    (hmessage : message.UnknownApart schema) : message.UnknownApart other where
  numbered := hmessage.numbered
  accepts_eq field hfield entry hentry := by
    obtain ⟨same, hmem, hbare⟩ := hsame.exists_entry hentry
    rw [← entry.accepts_withoutPacking, ← hbare, same.accepts_withoutPacking]
    exact hmessage.accepts_eq field hfield same hmem
  eq_empty hkeeps := hmessage.eq_empty (hsame.keepsUnknown_eq.symm.trans hkeeps)

end MessageSchema

namespace Catalog

variable {catalog other : Catalog} (hother : other.withoutPacking = catalog.withoutPacking)
include hother

theorem sameButPacking_schema (name : String) :
    (catalog.schema name).SameButPacking (other.schema name) := by
  refine .of_withoutPacking ?_
  rw [← schema_withoutPacking, hother, schema_withoutPacking]

theorem exists_listed {listed : String × MessageSchema} (hlisted : listed ∈ other.messages) :
    ∃ same ∈ catalog.messages, same.2.SameButPacking listed.2 := by
  have hmessages := congrArg Catalog.messages hother
  have hmem := List.mem_map_of_mem (f := fun listed => (listed.1, listed.2.withoutPacking)) hlisted
  change _ ∈ other.withoutPacking.messages at hmem
  rw [hmessages] at hmem
  obtain ⟨same, hsame, hbare⟩ := List.mem_map.mp hmem
  exact ⟨same, hsame, .of_withoutPacking (congrArg Prod.snd hbare).symm⟩

theorem Numbered.repacked (hnumbered : catalog.Numbered) : other.Numbered := by
  intro listed hlisted
  obtain ⟨same, hmem, hsame⟩ := exists_listed hother hlisted
  exact hsame.numbered (hnumbered same hmem)

theorem OptionsSingular.repacked (hoptions : catalog.OptionsSingular) : other.OptionsSingular := by
  intro listed hlisted entry hentry
  obtain ⟨same, hmem, hsame⟩ := exists_listed hother hlisted
  obtain ⟨entry', hentry', hbare⟩ := hsame.exists_entry hentry
  rw [← entry.optionsSingular_withoutPacking, ← hbare, entry'.optionsSingular_withoutPacking]
  exact hoptions same hmem entry' hentry'

theorem Defaulted.repacked (hdefaulted : catalog.Defaulted) : other.Defaulted := by
  intro listed hlisted entry hentry
  obtain ⟨same, hmem, hsame⟩ := exists_listed hother hlisted
  obtain ⟨entry', hentry', hbare⟩ := hsame.exists_entry hentry
  have hdefault : ∀ type, other.default? type = catalog.default? type := fun type => by
    rw [← default_withoutPacking, hother, default_withoutPacking]
  have hentries : entry.defaulted other = entry.defaulted catalog := by
    cases entry <;> simp only [Entry.defaulted, hdefault]
  rw [hentries, ← entry.defaulted_withoutPacking, ← hbare, entry'.defaulted_withoutPacking]
  exact hdefaulted same hmem entry' hentry'

end Catalog

/-! ## Values of both types -/

section Repacking

variable (catalog other : Catalog) (holds : MessageSchema → Message → Prop)

/-- A value of a type is one in the other catalog too, and the same is received of it. -/
structure Value.Repacked (type : ValueType) (value : Value) : Prop where
  conforms : value.Conforms other holds type
  rebuild_eq : value.rebuild other .received type = value.rebuild catalog .received type
  isOmitted_eq : value.isOmitted other type = value.isOmitted catalog type
  depth_eq : value.depth other type = value.depth catalog type

/-- A message of a type is one of the other type too, and the same is received of it. -/
structure Message.Repacked (schema schema' : MessageSchema) (message : Message) : Prop where
  conforms : message.Conforms other holds schema'
  rebuild_eq : message.rebuild other .received schema' = message.rebuild catalog .received schema
  records_eq_nil_iff : message.records other schema' = [] ↔ message.records catalog schema = []
  depth_eq : message.depth other schema' = message.depth catalog schema

/-- Contents of entries are such of the others too, and the same is received of them. -/
structure ContentsRepacked (entries entries' : List Entry) (contents : List Content) : Prop where
  conforms : ContentsConform other holds entries' contents
  rebuild_eq : rebuildContents other .received entries' contents =
    rebuildContents catalog .received entries contents
  records_eq_nil_iff : ∀ dialect dialect', contentsRecords other dialect' entries' contents = [] ↔
    contentsRecords catalog dialect entries contents = []
  depth_eq : contentsDepth other entries' contents = contentsDepth catalog entries contents

/-- A content of an entry is one of the other entry too, and the same is received of it. -/
structure Content.Repacked (entry entry' : Entry) (content : Content) : Prop where
  conforms : content.Conforms other holds entry'
  rebuild_eq : content.rebuild other .received entry' = content.rebuild catalog .received entry
  records_eq_nil_iff : ∀ dialect dialect', content.records other dialect' entry' = [] ↔
    content.records catalog dialect entry = []
  depth_eq : content.depth other entry' = content.depth catalog entry

end Repacking

section Parts

variable {catalog other : Catalog} {holds : MessageSchema → Message → Prop}

theorem valuesDepth_eq {element : ValueType} {values : List Value}
    (hvalues : ∀ value ∈ values, value.Repacked catalog other holds element) :
    valuesDepth other element values = valuesDepth catalog element values := by
  induction values with
  | nil => rfl
  | cons value values ih =>
      rw [valuesDepth, valuesDepth, (hvalues value List.mem_cons_self).depth_eq,
        ih fun value hvalue => hvalues value (List.mem_cons_of_mem _ hvalue)]

theorem entriesDepth_eq {type : ValueType} {entries : List (Scalar × Value)}
    (hvalues : ∀ entry ∈ entries, entry.2.Repacked catalog other holds type) :
    entriesDepth other type entries = entriesDepth catalog type entries := by
  induction entries with
  | nil => rfl
  | cons entry entries ih =>
      rw [entriesDepth, entriesDepth, (hvalues entry List.mem_cons_self).depth_eq,
        ih fun entry hentry => hvalues entry (List.mem_cons_of_mem _ hentry)]

/-- A run is written exactly where records of the elements are. -/
theorem records_repeated_eq_nil_iff (catalog : Catalog) (dialect : Dialect) (name : String)
    (number : UInt32) (element : ValueType) (packed : Option Bool) (values : List Value) :
    Content.records catalog dialect (.repeated name number element packed) (.repeated values) = [] ↔
      values = [] := by
  rw [Content.records]
  cases values with
  | nil => simp only [List.isEmpty_nil, if_true]
  | cons value values =>
      simp only [List.isEmpty_cons, Bool.false_eq_true, if_false]
      split <;> exact iff_of_false (List.cons_ne_nil _ _) (List.cons_ne_nil _ _)

theorem repacked_singular {name : String} {number : UInt32} {type : ValueType}
    {optional nonNull : Bool} {value : Value} (hvalue : value.Repacked catalog other holds type) :
    Content.Repacked catalog other holds (.singular name number type optional nonNull)
      (.singular name number type optional nonNull) (.singular value) where
  conforms := .singular name number type optional nonNull value hvalue.conforms
  rebuild_eq := by rw [Content.rebuild, Content.rebuild, hvalue.rebuild_eq]
  records_eq_nil_iff dialect dialect' := by
    rw [Content.records, Content.records, hvalue.isOmitted_eq]
    split
    next => exact iff_of_false (List.cons_ne_nil _ _) (List.cons_ne_nil _ _)
    next => rfl
  depth_eq := by rw [Content.depth, Content.depth, hvalue.isOmitted_eq, hvalue.depth_eq]

theorem repacked_repeated {name : String} {number : UInt32} {element : ValueType}
    {packed packed' : Option Bool} {values : List Value}
    (hvalues : ∀ value ∈ values, value.Repacked catalog other holds element) :
    Content.Repacked catalog other holds (.repeated name number element packed)
      (.repeated name number element packed') (.repeated values) where
  conforms := .repeated name number element packed' values fun value hvalue =>
    (hvalues value hvalue).conforms
  rebuild_eq := by
    rw [Content.rebuild, Content.rebuild, rebuildValues_eq, rebuildValues_eq]
    exact congrArg Content.repeated
      (List.map_congr_left fun value hvalue => (hvalues value hvalue).rebuild_eq)
  records_eq_nil_iff dialect dialect' := by
    rw [records_repeated_eq_nil_iff, records_repeated_eq_nil_iff]
  depth_eq := valuesDepth_eq hvalues

theorem repacked_map {name : String} {number : UInt32} {key : ScalarType} {type : ValueType}
    {order : MapOrder} {entries : List (Scalar × Value)}
    (hkeys : ∀ entry ∈ entries, entry.1.type = key) (horder : order.Arranges entries)
    (hvalues : ∀ entry ∈ entries, entry.2.Repacked catalog other holds type) :
    Content.Repacked catalog other holds (.map name number key type order)
      (.map name number key type order) (.mapping entries) where
  conforms := .mapping name number key type order entries hkeys horder fun entry hentry =>
    (hvalues entry hentry).conforms
  rebuild_eq := by
    rw [Content.rebuild, Content.rebuild, rebuildEntries_eq, rebuildEntries_eq]
    refine congrArg (fun entries => Content.mapping (sortEntries entries)) (List.map_congr_left ?_)
    exact fun entry hentry => congrArg (Prod.mk entry.1) (hvalues entry hentry).rebuild_eq
  records_eq_nil_iff dialect dialect' := by
    cases entries with
    | nil => rfl
    | cons entry entries => exact iff_of_false (List.cons_ne_nil _ _) (List.cons_ne_nil _ _)
  depth_eq := entriesDepth_eq hvalues

theorem repacked_chosen {name : String} {schema : OneofSchema} {required : Bool} {place : Nat}
    {member : Member} {value : Value} (hmember : schema.members[place]? = some member)
    (hvalue : value.Repacked catalog other holds member.type) :
    Content.Repacked catalog other holds (.oneof name schema required)
      (.oneof name schema required) (.chosen place value) where
  conforms := .chosen name schema required place member value hmember hvalue.conforms
  rebuild_eq := by simp only [Content.rebuild, hmember, hvalue.rebuild_eq]
  records_eq_nil_iff dialect dialect' := by
    rw [Content.records, Content.records, hmember]
    exact iff_of_false (List.cons_ne_nil _ _) (List.cons_ne_nil _ _)
  depth_eq := by simp only [Content.depth, hmember, hvalue.depth_eq]

/-- What is a message of a type is one of every type that differs from it in what it packs alone. -/
theorem inherits_repacked (hschema : ∀ name,
      (catalog.schema name).SameButPacking (other.schema name))
    (hholds : ∀ (schema schema' : MessageSchema) (message : Message),
      schema.SameButPacking schema' → holds schema message → holds schema' message) :
    Inherits catalog holds
      (fun type value => value.Repacked catalog other holds type)
      (fun schema message => ∀ schema', schema.SameButPacking schema' →
        message.Repacked catalog other holds schema schema')
      (fun entries contents => ∀ entries',
        entries'.map (·.withoutPacking) = entries.map (·.withoutPacking) →
          ContentsRepacked catalog other holds entries entries' contents)
      (fun entry content => ∀ entry', entry'.withoutPacking = entry.withoutPacking →
        content.Repacked catalog other holds entry entry') where
  scalar type scalar htype := ⟨.scalar type scalar htype, rfl, rfl, rfl⟩
  enumeration schema value := ⟨.enumeration schema value, rfl, rfl, rfl⟩
  message name message hmessage := by
    have hrepacked := hmessage (other.schema name) (hschema name)
    refine ⟨.message name message hrepacked.conforms, congrArg Value.message hrepacked.rebuild_eq,
      ?_, congrArg Nat.succ hrepacked.depth_eq⟩
    rw [Value.isOmitted, Value.isOmitted, Bool.eq_iff_iff, List.isEmpty_iff, List.isEmpty_iff]
    exact hrepacked.records_eq_nil_iff
  absent inner := ⟨.absent inner, rfl, rfl, rfl⟩
  present inner value hvalue :=
    ⟨.present inner value hvalue.conforms, congrArg Value.present hvalue.rebuild_eq, rfl,
      hvalue.depth_eq⟩
  reference converter wire held value hvalue :=
    ⟨.reference converter wire held value hvalue.conforms,
      congrArg (Value.reference .wire) hvalue.rebuild_eq, hvalue.isOmitted_eq, hvalue.depth_eq⟩
  body schema contents unknown cache hmessage _ hcontents schema' hsame := by
    have hrepacked := hcontents schema'.entries hsame.entries_eq
    have hholds' := hholds schema schema' _ hsame hmessage
    refine ⟨.mk schema' contents unknown cache hholds' hrepacked.conforms, ?_, ?_,
      hrepacked.depth_eq⟩
    · rw [Message.rebuild, Message.rebuild, hrepacked.rebuild_eq]
    · rw [Message.records, Message.records, List.append_eq_nil_iff, List.append_eq_nil_iff,
        hrepacked.records_eq_nil_iff schema.dialect]
  nil entries' hentries := by
    rw [List.map_nil, List.map_eq_nil_iff] at hentries
    rw [hentries]
    exact ⟨.nil, rfl, fun _ _ => Iff.rfl, rfl⟩
  cons entry content entries contents hcontent hcontents entries' hentries := by
    obtain ⟨entry', rest, rfl, hentry, hrest⟩ := List.map_eq_cons_iff.mp hentries
    have hfirst := hcontent entry' hentry
    have hothers := hcontents rest hrest
    refine ⟨.cons entry' content rest contents hfirst.conforms hothers.conforms, ?_, ?_, ?_⟩
    · rw [rebuildContents, rebuildContents, hfirst.rebuild_eq, hothers.rebuild_eq]
    · intro dialect dialect'
      rw [contentsRecords, contentsRecords, List.append_eq_nil_iff, List.append_eq_nil_iff,
        hfirst.records_eq_nil_iff dialect, hothers.records_eq_nil_iff dialect]
    · rw [contentsDepth, contentsDepth, hfirst.depth_eq, hothers.depth_eq]
  singular name number type optional nonNull value _ hvalue entry' hentry := by
    cases entry' <;> cases hentry
    exact repacked_singular hvalue
  repeated name number element packed values hvalues entry' hentry := by
    cases entry' <;> cases hentry
    exact repacked_repeated hvalues
  mapping name number key type order entries hkeys horder hvalues entry' hentry := by
    cases entry' <;> cases hentry
    exact repacked_map hkeys horder hvalues
  unset name schema entry' hentry := by
    cases entry' <;> cases hentry
    exact ⟨.unset name schema, rfl, fun _ _ => Iff.rfl, rfl⟩
  chosen name schema required place member value hmember hvalue entry' hentry := by
    cases entry' <;> cases hentry
    exact repacked_chosen hmember hvalue

end Parts

/-! ## Writing and reading -/

section Writing

variable {catalog other : Catalog} (hother : other.withoutPacking = catalog.withoutPacking)
  {name name' : String} (hsame : (catalog.schema name).SameButPacking (other.schema name'))
  {message : Message}
include hother hsame

theorem Message.Conforms.repacked {holds : MessageSchema → Message → Prop}
    (hmessage : message.Conforms catalog holds (catalog.schema name))
    (hholds : ∀ (schema schema' : MessageSchema) (message : Message),
      schema.SameButPacking schema' → holds schema message → holds schema' message) :
    message.Repacked catalog other holds (catalog.schema name) (other.schema name') :=
  (inherits_repacked (Catalog.sameButPacking_schema hother) hholds).of_message hmessage _ hsame

variable (hnumbered : catalog.Numbered) (hoptions : catalog.OptionsSingular)
  (hdefaulted : catalog.Defaulted)
  (hmessage : message.Conforms catalog (fun schema message => message.UnknownApart schema)
    (catalog.schema name))
  {pass : Nat} (hunused : message.CachesUnused catalog (some pass) (catalog.schema name))
  {config : ReaderConfig}
  (hdepth : message.depth catalog (catalog.schema name) ≤ config.recursionLimit)
include hnumbered hoptions hdefaulted hmessage hunused hdepth

/-- A message that a new pass encodes as one type decodes as the other to what is received of it. -/
theorem Catalog.decode_repacked
    (hlength : (catalog.encode name pass message).answer.length < addressSpace) :
    other.decode name' (catalog.encode name pass message).answer config =
      .ok (message.asReceived catalog (catalog.schema name)) := by
  have hencode := hunused.encode_eq hnumbered hoptions
    (hmessage.mono fun _ _ hunknown => hunknown.numbered)
  rw [decode_of_sameButPacking hother hsame, hencode]
  rw [hencode] at hlength
  have hrestored := hmessage.restored hnumbered hoptions hdefaulted
  exact (decode_eq_ok_iff hnumbered).mpr (hrestored.message_eq hdepth hlength)

/-- The same is received of the message when it is encoded as the other type. -/
theorem Catalog.decode_repacked_back
    (hlength : (other.encode name' pass message).answer.length < addressSpace) :
    catalog.decode name (other.encode name' pass message).answer config =
      .ok (message.asReceived catalog (catalog.schema name)) := by
  have hrepacked := hmessage.repacked hother hsame fun _ _ _ hsame' => hsame'.unknownApart
  have hunused' : message.CachesUnused other (some pass) (other.schema name') :=
    (Message.Conforms.repacked hother hsame hunused fun _ _ _ _ hnone => hnone).conforms
  rw [← hrepacked.depth_eq] at hdepth
  have hreceived : message.asReceived catalog (catalog.schema name) =
      message.asReceived other (other.schema name') := hrepacked.rebuild_eq.symm
  rw [hreceived]
  exact decode_repacked hother.symm hsame.symm (hnumbered.repacked hother)
    (hoptions.repacked hother) (hdefaulted.repacked hother) hrepacked.conforms hunused' hdepth
    hlength

end Writing

end ProtoWire
