import ProtoWire.Proofs.Altered
import ProtoWire.Proofs.Received
import ProtoWire.Proofs.Sizes

/-! # Messages with and without remembered sizes

A message has the same size and is written as the same bytes as the message with all remembered
sizes taken away, as long as what is remembered of the running pass is right. Working out sizes
keeps it right.
-/

namespace ProtoWire

/-! ## Types that remember nothing -/

/-- The message type without the field that remembers the size. -/
def MessageSchema.withoutCache (schema : MessageSchema) : MessageSchema :=
  { schema with sizeField := none }

namespace Catalog

/-- The message types without the fields that remember sizes. -/
def withoutCaches (catalog : Catalog) : Catalog :=
  ⟨catalog.messages.map fun listed => (listed.1, listed.2.withoutCache)⟩

theorem withoutCaches_withoutCaches (catalog : Catalog) :
    catalog.withoutCaches.withoutCaches = catalog.withoutCaches := by
  simp only [withoutCaches, List.map_map]
  rfl

theorem schema_withoutCaches (catalog : Catalog) (name : String) :
    catalog.withoutCaches.schema name = (catalog.schema name).withoutCache :=
  schema_alter (fun _ => rfl) catalog name

end Catalog

/-- No remembered size, every reference in its wire form, and nothing else changed. -/
def Rewriting.bare : Rewriting where
  singular value := value
  enumeration _ value := value
  held _ := .wire
  entries entries := entries
  cache _ := .empty

theorem Content.rebuild_bare_singular {catalog : Catalog} {name : String} {number : UInt32}
    {type : ValueType} {optional nonNull : Bool} {value : Value} :
    Content.rebuild catalog .bare (.singular name number type optional nonNull) (.singular value) =
      .singular (value.rebuild catalog .bare type) := by
  cases nonNull <;> rfl

/-- The size of the body of a message of which nothing is remembered. -/
def Message.plainSize (catalog : Catalog) (schema : MessageSchema) (message : Message) : Nat :=
  (message.rebuild catalog .bare schema).bodySize catalog.withoutCaches none schema.withoutCache

/-- The body of a message of which nothing is remembered. -/
def Message.plainBody (catalog : Catalog) (schema : MessageSchema) (message : Message) : Bytes :=
  (message.rebuild catalog .bare schema).writeBody catalog.withoutCaches none schema.withoutCache

theorem Message.plainSize_mk {catalog : Catalog} {schema : MessageSchema} {contents : List Content}
    {unknown : UnknownFieldSet} {cache : SizeCache} :
    (Message.mk contents unknown cache).plainSize catalog schema =
      contentsSize catalog.withoutCaches none schema.dialect schema.entries
        (rebuildContents catalog .bare schema.entries contents) + unknown.size :=
  bodySize_empty schema.withoutCache _ unknown

theorem Message.bodySize_none {catalog : Catalog} {schema : MessageSchema} {contents : List Content}
    {unknown : UnknownFieldSet} {cache : SizeCache} :
    (Message.mk contents unknown cache).bodySize catalog none schema =
      contentsSize catalog none schema.dialect schema.entries contents + unknown.size := by
  rw [Message.bodySize]
  cases schema.cachesSize <;> rfl

namespace SizeCache

theorem find_empty (pass : Pass) : empty.find? pass = none := by
  cases pass <;> rfl

/-- Nothing is found of a pass that comes after all that is stored. -/
theorem find_eq_none {cache : SizeCache} {next : Nat}
    (hstored : ∀ stored, cache.stored = some stored → stored.pass < next) :
    cache.find? (some next) = none := by
  obtain ⟨_ | stored⟩ := cache
  · rfl
  · exact if_neg (hstored stored rfl).ne

end SizeCache

/-- What the cache of a message remembers of a pass is the size of the message. -/
def Message.Reusable (catalog : Catalog) (pass : Pass) (schema : MessageSchema)
    (message : Message) : Prop :=
  ∀ size, schema.cachesSize = true → message.cache.find? pass = some size →
    size = message.plainSize catalog schema

/-! ## Sizes and bytes -/

section Plain

variable {catalog : Catalog} {pass : Pass}

/-- In a pass a value is what it is with nothing remembered. -/
structure Value.Plain (catalog : Catalog) (pass : Pass) (type : ValueType) (value : Value) :
    Prop where
  size_eq : value.size catalog pass type =
    (value.rebuild catalog .bare type).size catalog.withoutCaches none type
  isDefault_eq : value.isDefault catalog pass type =
    (value.rebuild catalog .bare type).isDefault catalog.withoutCaches none type
  write_eq : value.write catalog pass type =
    (value.rebuild catalog .bare type).write catalog.withoutCaches none type

/-- In a pass a message is what it is with nothing remembered. -/
structure Message.Plain (catalog : Catalog) (pass : Pass) (schema : MessageSchema)
    (message : Message) : Prop where
  size_eq : message.bodySize catalog pass schema = message.plainSize catalog schema
  write_eq : message.writeBody catalog pass schema = message.plainBody catalog schema

section Lists

variable {type : ValueType} {values : List Value} {entries : List (Scalar × Value)}

theorem valuesSize_plain (hvalues : ∀ value ∈ values, value.Plain catalog pass type) :
    valuesSize catalog pass type values =
      valuesSize catalog.withoutCaches none type (rebuildValues catalog .bare type values) := by
  induction values with
  | nil => rfl
  | cons value values ih =>
      rw [valuesSize, rebuildValues, valuesSize, (hvalues value List.mem_cons_self).size_eq,
        ih fun other hother => hvalues other (List.mem_cons_of_mem value hother)]

theorem writePayloads_plain (hvalues : ∀ value ∈ values, value.Plain catalog pass type) :
    writePayloads catalog pass type values =
      writePayloads catalog.withoutCaches none type (rebuildValues catalog .bare type values) := by
  induction values with
  | nil => rfl
  | cons value values ih =>
      rw [writePayloads, rebuildValues, writePayloads, (hvalues value List.mem_cons_self).write_eq,
        ih fun other hother => hvalues other (List.mem_cons_of_mem value hother)]

theorem writeElements_plain {number : UInt32}
    (hvalues : ∀ value ∈ values, value.Plain catalog pass type) :
    writeElements catalog pass number type values =
      writeElements catalog.withoutCaches none number type
        (rebuildValues catalog .bare type values) := by
  induction values with
  | nil => rfl
  | cons value values ih =>
      rw [writeElements, rebuildValues, writeElements, (hvalues value List.mem_cons_self).write_eq,
        ih fun other hother => hvalues other (List.mem_cons_of_mem value hother)]

theorem mapEntriesSize_plain {number : UInt32}
    (hvalues : ∀ entry ∈ entries, entry.2.Plain catalog pass type) :
    mapEntriesSize catalog pass number type entries =
      mapEntriesSize catalog.withoutCaches none number type
        (rebuildEntries catalog .bare type entries) := by
  induction entries with
  | nil => rfl
  | cons entry entries ih =>
      rw [mapEntriesSize, rebuildEntries, mapEntriesSize,
        (hvalues entry List.mem_cons_self).size_eq,
        ih fun other hother => hvalues other (List.mem_cons_of_mem entry hother)]

theorem writeMapEntries_plain {number : UInt32}
    (hvalues : ∀ entry ∈ entries, entry.2.Plain catalog pass type) :
    writeMapEntries catalog pass number type entries =
      writeMapEntries catalog.withoutCaches none number type
        (rebuildEntries catalog .bare type entries) := by
  induction entries with
  | nil => rfl
  | cons entry entries ih =>
      have hvalue := hvalues entry List.mem_cons_self
      rw [writeMapEntries, rebuildEntries, writeMapEntries, hvalue.size_eq, hvalue.write_eq,
        ih fun other hother => hvalues other (List.mem_cons_of_mem entry hother)]

end Lists

/-- Where what is remembered of the pass is right, it makes no difference. -/
theorem inherits_plain {holds : MessageSchema → Message → Prop}
    (hreusable : ∀ schema message, holds schema message → message.Reusable catalog pass schema) :
    Inherits catalog holds
      (fun type value => value.Plain catalog pass type)
      (fun schema message => message.Plain catalog pass schema)
      (fun entries contents => ∀ dialect,
        contentsSize catalog pass dialect entries contents =
            contentsSize catalog.withoutCaches none dialect entries
              (rebuildContents catalog .bare entries contents) ∧
          writeContents catalog pass dialect entries contents =
            writeContents catalog.withoutCaches none dialect entries
              (rebuildContents catalog .bare entries contents))
      (fun entry content => ∀ dialect,
        content.size catalog pass dialect entry =
            (content.rebuild catalog .bare entry).size catalog.withoutCaches none dialect entry ∧
          content.write catalog pass dialect entry =
            (content.rebuild catalog .bare entry).write catalog.withoutCaches none dialect
              entry) where
  scalar type scalar _ := ⟨rfl, rfl, rfl⟩
  enumeration schema value := ⟨rfl, rfl, rfl⟩
  message name message hmessage := by
    have hsize := hmessage.size_eq
    have hwrite := hmessage.write_eq
    rw [Message.plainSize, ← Catalog.schema_withoutCaches] at hsize
    rw [Message.plainBody, ← Catalog.schema_withoutCaches] at hwrite
    constructor
    · rw [Value.size, Value.rebuild, Value.size, hsize]
    · rw [Value.isDefault, Value.rebuild, Value.isDefault, hsize]
    · rw [Value.write, Value.rebuild, Value.write, hsize, hwrite]
  absent inner := ⟨rfl, rfl, rfl⟩
  present inner value hvalue := ⟨hvalue.size_eq, rfl, hvalue.write_eq⟩
  reference converter wire held value hvalue :=
    ⟨hvalue.size_eq, hvalue.isDefault_eq, hvalue.write_eq⟩
  body schema contents unknown cache hholds _ hcontents := by
    obtain ⟨hsize, hwrite⟩ := hcontents schema.dialect
    constructor
    · rw [Message.bodySize]
      split
      -- What is found is right; otherwise the size is the sum of the parts on both sides.
      next size hfound =>
        obtain ⟨hcaches, hfound⟩ := (Option.ite_none_right_eq_some).mp hfound
        exact hreusable schema _ hholds size hcaches hfound
      next =>
        rw [Message.plainSize_mk, hsize]
    · rw [Message.writeBody, hwrite]
      rfl
  nil dialect := ⟨rfl, rfl⟩
  cons entry content entries contents hcontent hcontents dialect := by
    constructor
    · rw [contentsSize, rebuildContents, contentsSize, (hcontent dialect).1, (hcontents dialect).1]
    · rw [writeContents, rebuildContents, writeContents, (hcontent dialect).2,
        (hcontents dialect).2]
  singular name number type optional nonNull value _ hvalue dialect := by
    rw [Content.rebuild_bare_singular]
    constructor
    · rw [Content.size, Content.size, hvalue.isDefault_eq, hvalue.size_eq]
    · rw [Content.write, Content.write, hvalue.isDefault_eq, hvalue.write_eq]
  repeated name number element packed values hvalues dialect := by
    have hlength : (rebuildValues catalog .bare element values).length = values.length := by
      rw [rebuildValues_eq, List.length_map]
    have hempty : (rebuildValues catalog .bare element values).isEmpty = values.isEmpty := by
      rw [rebuildValues_eq, List.isEmpty_map]
    constructor
    · rw [Content.size, Content.rebuild, Content.size, valuesSize_plain hvalues, hlength, hempty]
    · rw [Content.write, Content.rebuild, Content.write, valuesSize_plain hvalues,
        writePayloads_plain hvalues, writeElements_plain hvalues, hlength, hempty]
  mapping name number key type order entries _ _ hvalues dialect :=
    ⟨mapEntriesSize_plain hvalues, writeMapEntries_plain hvalues⟩
  unset name schema dialect := ⟨rfl, rfl⟩
  chosen name schema required place member value hmember hvalue dialect := by
    simp only [Content.size, Content.write, Content.rebuild, hmember, hvalue.size_eq,
      hvalue.write_eq, and_self]

theorem Message.reusable_of_unused {schema : MessageSchema} {message : Message}
    (hunused : message.cache.find? pass = none) : message.Reusable catalog pass schema := by
  intro size _ hfound
  rw [hunused] at hfound
  cases hfound

theorem Message.reusable_none (schema : MessageSchema) (message : Message) :
    message.Reusable catalog none schema := nofun

theorem Message.Conforms.plain {schema : MessageSchema} {message : Message}
    {holds : MessageSchema → Message → Prop} (hmessage : message.Conforms catalog holds schema)
    (hreusable : ∀ schema message, holds schema message → message.Reusable catalog pass schema) :
    message.Plain catalog pass schema := (inherits_plain hreusable).of_message hmessage

end Plain

/-! ## Working out sizes -/

section Settling

variable {catalog : Catalog} {pass : Pass}

/-- What is remembered before sizes are worked out: of the pass that is running what is right or, if
the pass is new to the message, nothing. -/
structure Message.Ready (catalog : Catalog) (pass : Pass) (first : Prop) (schema : MessageSchema)
    (message : Message) : Prop where
  reusable : message.Reusable catalog pass schema
  find_eq : first → message.cache.find? pass = none

theorem Message.ready_of_unused {first : Prop} {schema : MessageSchema} {message : Message}
    (hunused : message.cache.find? pass = none) : message.Ready catalog pass first schema :=
  ⟨reusable_of_unused hunused, fun _ => hunused⟩

/-- What is remembered once sizes are worked out: of the pass that is running what is right and, if
nothing was remembered of it before, the size of every message. -/
structure Message.Settled (catalog : Catalog) (pass : Pass) (first : Prop) (schema : MessageSchema)
    (message : Message) : Prop where
  reusable : message.Reusable catalog pass schema
  get_eq : first → pass.isSome = true → schema.cachesSize = true →
    message.cache.get? = some (message.bodySize catalog none schema)

theorem SizeCache.get_remember {cache : SizeCache} {size : Nat} (hpass : pass.isSome = true) :
    (cache.remember pass size).get? = some size := by
  cases pass with
  | none => cases hpass
  | some pass => rfl

/-- The size that is remembered is worked out from settled contents. -/
theorem settledSize_eq {first : Prop} {schema : MessageSchema} {contents : List Content}
    (hcontents : ContentsConform catalog (Message.Settled catalog pass first) schema.entries
      contents)
    (unknown : UnknownFieldSet) (cache : SizeCache) :
    let size := contentsSize catalog pass schema.dialect schema.entries contents + unknown.size
    size = (Message.mk contents unknown cache).plainSize catalog schema ∧
      size = (Message.mk contents unknown cache).bodySize catalog none schema := by
  intro size
  have hsize : size = (Message.mk contents unknown cache).plainSize catalog schema := by
    rw [Message.plainSize_mk]
    have hplain := (inherits_plain fun _ _ hsettled => hsettled.reusable).of_contents hcontents
    exact congrArg (· + unknown.size) (hplain schema.dialect).1
  refine ⟨hsize, hsize.trans ?_⟩
  have houtside := (inherits_plain fun schema message _ =>
    message.reusable_none schema).of_contents hcontents
  rw [Message.plainSize_mk, Message.bodySize_none, (houtside schema.dialect).1]

/-- Working out sizes changes nothing but remembered sizes and the form of references. -/
theorem inherits_settle {first : Prop} :
    Inherits catalog (Message.Ready catalog pass first)
      (fun type value =>
        (value.settle catalog pass type).rebuild catalog .bare type =
            value.rebuild catalog .bare type ∧
          (value.settle catalog pass type).Conforms catalog (Message.Settled catalog pass first)
            type)
      (fun schema message =>
        (message.settle catalog pass schema).rebuild catalog .bare schema =
            message.rebuild catalog .bare schema ∧
          (message.settle catalog pass schema).Conforms catalog (Message.Settled catalog pass first)
            schema)
      (fun entries contents =>
        rebuildContents catalog .bare entries (settleContents catalog pass entries contents) =
            rebuildContents catalog .bare entries contents ∧
          ContentsConform catalog (Message.Settled catalog pass first) entries
            (settleContents catalog pass entries contents))
      (fun entry content =>
        (content.settle catalog pass entry).rebuild catalog .bare entry =
            content.rebuild catalog .bare entry ∧
          (content.settle catalog pass entry).Conforms catalog (Message.Settled catalog pass first)
            entry) where
  scalar type scalar htype := ⟨rfl, .scalar type scalar htype⟩
  enumeration schema value := ⟨rfl, .enumeration schema value⟩
  message name message hmessage :=
    ⟨congrArg Value.message hmessage.1, .message name _ hmessage.2⟩
  absent inner := ⟨rfl, .absent inner⟩
  present inner value hvalue := ⟨congrArg Value.present hvalue.1, .present inner _ hvalue.2⟩
  reference converter wire held value hvalue :=
    ⟨congrArg (Value.reference .wire) hvalue.1, .reference converter wire .wire _ hvalue.2⟩
  body schema contents unknown cache hholds hcontents hsettled := by
    rw [Message.settle]
    split
    -- A size is found, which spares the work. So the pass is not new to the message.
    next size hfound =>
      obtain ⟨_, hfound⟩ := (Option.ite_none_right_eq_some).mp hfound
      have hlater : ¬first := fun hnow => by
        have hnone := hholds.find_eq hnow
        rw [Message.cache, hfound] at hnone
        cases hnone
      refine ⟨rfl, Message.Conforms.mono (.mk schema contents unknown cache hholds hcontents) ?_⟩
      exact fun schema message hready => ⟨hready.reusable, fun hnow => (hlater hnow).elim⟩
    next =>
      obtain ⟨hrebuild, hconforms⟩ := hsettled
      have hsize := settledSize_eq hconforms unknown
      refine ⟨?_, .mk schema _ unknown _ ⟨fun found hcaches hfound => ?_, fun _ hpass hcaches => ?_⟩
        hconforms⟩
      · rw [Message.rebuild, Message.rebuild, hrebuild]
        rfl
      · change (if schema.cachesSize = true then _ else cache).find? pass = some found at hfound
        rw [if_pos hcaches] at hfound
        rw [eq_of_find_remember hfound]
        exact (hsize _).1
      · change (if schema.cachesSize = true then _ else cache).get? = _
        rw [if_pos hcaches, SizeCache.get_remember hpass]
        exact congrArg some (hsize _).2
  nil := ⟨rfl, .nil⟩
  cons entry content entries contents hcontent hcontents := by
    refine ⟨?_, .cons _ _ _ _ hcontent.2 hcontents.2⟩
    rw [settleContents, rebuildContents, rebuildContents, hcontent.1, hcontents.1]
  singular name number type optional nonNull value _ hvalue := by
    refine ⟨?_, .singular name number type optional nonNull _ hvalue.2⟩
    rw [Content.settle, Content.rebuild_bare_singular, Content.rebuild_bare_singular, hvalue.1]
  repeated name number element packed values hvalues := by
    rw [Content.settle, settleValues_eq]
    have hrebuilt := rebuildValues_map fun value hvalue => (hvalues value hvalue).1
    exact ⟨congrArg Content.repeated hrebuilt,
      .repeated_map fun value hvalue => (hvalues value hvalue).2⟩
  mapping name number key type order entries hkeys horder hvalues := by
    rw [Content.settle, settleEntries_eq]
    have hrebuilt := rebuildEntries_map fun entry hentry => (hvalues entry hentry).1
    exact ⟨congrArg Content.mapping hrebuilt,
      .mapping_map hkeys horder fun entry hentry => (hvalues entry hentry).2⟩
  unset name schema := ⟨rfl, .unset name schema⟩
  chosen name schema required place member value hmember hvalue := by
    rw [Content.settle_chosen hmember]
    constructor
    · simp only [Content.rebuild, hmember, hvalue.1]
    · exact .chosen name schema required place member _ hmember hvalue.2

end Settling

/-! ## Copies -/

section Copies

theorem copyValues_eq (values : List Value) : copyValues values = values.map Value.copy := by
  induction values with
  | nil => rfl
  | cons value values ih => rw [copyValues, ih, List.map_cons]

theorem copyEntries_eq (entries : List (Scalar × Value)) :
    copyEntries entries = entries.map fun entry => (entry.1, entry.2.copy) := by
  induction entries with
  | nil => rfl
  | cons entry entries ih => rw [copyEntries, ih, List.map_cons]

variable {catalog other : Catalog} {holds holds' : MessageSchema → Message → Prop}

/-- A copy is a message of its type, also where types remember their sizes elsewhere or not at all.
-/
theorem inherits_copy {change : MessageSchema → MessageSchema}
    (hentries : ∀ schema, (change schema).entries = schema.entries)
    (hschema : ∀ name, other.schema name = change (catalog.schema name))
    (hempty : ∀ schema contents unknown, holds' schema (.mk contents unknown .empty)) :
    Inherits catalog holds
      (fun type value => value.copy.Conforms other holds' type ∧
        value.copy.rebuild other .bare type = value.rebuild catalog .bare type)
      (fun schema message => message.copy.Conforms other holds' (change schema) ∧
        message.copy.rebuild other .bare (change schema) = message.rebuild catalog .bare schema)
      (fun entries contents => ContentsConform other holds' entries (copyContents contents) ∧
        rebuildContents other .bare entries (copyContents contents) =
          rebuildContents catalog .bare entries contents)
      (fun entry content => content.copy.Conforms other holds' entry ∧
        content.copy.rebuild other .bare entry = content.rebuild catalog .bare entry) where
  scalar type scalar htype := ⟨.scalar type scalar htype, rfl⟩
  enumeration schema value := ⟨.enumeration schema value, rfl⟩
  message name message hmessage := by
    rw [← hschema] at hmessage
    exact ⟨.message name _ hmessage.1, congrArg Value.message hmessage.2⟩
  absent inner := ⟨.absent inner, rfl⟩
  present inner value hvalue := ⟨.present inner _ hvalue.1, congrArg Value.present hvalue.2⟩
  reference converter wire held value hvalue :=
    ⟨.reference converter wire held _ hvalue.1, congrArg (Value.reference .wire) hvalue.2⟩
  body schema contents unknown cache _ _ hcontents := by
    rw [← hentries] at hcontents
    refine ⟨.mk (change schema) _ unknown _ (hempty _ _ unknown) hcontents.1, ?_⟩
    rw [Message.copy, Message.rebuild, hcontents.2, hentries]
    rfl
  nil := ⟨.nil, rfl⟩
  cons entry content entries contents hcontent hcontents := by
    refine ⟨.cons _ _ _ _ hcontent.1 hcontents.1, ?_⟩
    rw [copyContents, rebuildContents, rebuildContents, hcontent.2, hcontents.2]
  singular name number type optional nonNull value _ hvalue := by
    refine ⟨.singular name number type optional nonNull _ hvalue.1, ?_⟩
    rw [Content.copy, Content.rebuild_bare_singular, Content.rebuild_bare_singular, hvalue.2]
  repeated name number element packed values hvalues := by
    rw [Content.copy, copyValues_eq]
    exact ⟨.repeated_map fun value hvalue => (hvalues value hvalue).1,
      congrArg Content.repeated (rebuildValues_map fun value hvalue => (hvalues value hvalue).2)⟩
  mapping name number key type order entries hkeys horder hvalues := by
    rw [Content.copy, copyEntries_eq]
    exact ⟨.mapping_map hkeys horder fun entry hentry => (hvalues entry hentry).1,
      congrArg Content.mapping (rebuildEntries_map fun entry hentry => (hvalues entry hentry).2)⟩
  unset name schema := ⟨.unset name schema, rfl⟩
  chosen name schema required place member value hmember hvalue := by
    refine ⟨.chosen name schema required place member _ hmember hvalue.1, ?_⟩
    simp only [Content.copy, Content.rebuild, hmember, hvalue.2]

section Messages

variable {message : Message} {name : String}
  (hmessage : message.Conforms catalog holds (catalog.schema name))
  (hempty : ∀ schema contents unknown, holds' schema (.mk contents unknown .empty))
include hmessage hempty

/-- A copy is a message of its type that remembers nothing. -/
theorem Message.Conforms.copy : message.copy.Conforms catalog holds' (catalog.schema name) := by
  have hcopy := @inherits_copy catalog catalog holds holds' id (fun _ => rfl) (fun _ => rfl) hempty
  exact (hcopy.of_message hmessage).1

/-- A copy is also a message of the type that remembers no size. -/
theorem Message.Conforms.copy_withoutCaches :
    message.copy.Conforms catalog.withoutCaches holds' (catalog.withoutCaches.schema name) ∧
      message.copy.rebuild catalog.withoutCaches .bare (catalog.withoutCaches.schema name) =
        message.rebuild catalog .bare (catalog.schema name) := by
  have hcopy := @inherits_copy catalog catalog.withoutCaches holds holds'
    MessageSchema.withoutCache (fun _ => rfl) catalog.schema_withoutCaches hempty
  rw [catalog.schema_withoutCaches]
  exact hcopy.of_message hmessage

end Messages

end Copies

/-! ## Reading -/

section Reading

variable {catalog : Catalog}

theorem Catalog.default_withoutCaches (type : ValueType) :
    catalog.withoutCaches.default? type = catalog.default? type :=
  @default_alter MessageSchema.withoutCache (fun _ => rfl) (fun _ _ => rfl) catalog type

theorem MessageSchema.readBody_withoutCaches (body : String → ReaderM Message)
    (schema : MessageSchema) :
    schema.withoutCache.readBody catalog.withoutCaches body = schema.readBody catalog body := by
  have hdefault := catalog.default_withoutCaches
  have hrecord : schema.withoutCache.readRecord catalog.withoutCaches body =
      schema.readRecord catalog body := by
    funext tag gathered
    simp only [readRecord, Entry.readRecord_of_defaults hdefault]
    rfl
  rw [readBody, readBody, hrecord]
  simp only [finishEntries_of_defaults hdefault]
  rfl

/-- A message is read alike whether or not its type remembers sizes. -/
theorem Catalog.decode_withoutCaches (name : String) (bytes : Bytes) (config : ReaderConfig) :
    catalog.withoutCaches.decode name bytes config = catalog.decode name bytes config :=
  decode_alter (fun _ => rfl) (fun schema body => schema.readBody_withoutCaches body) name bytes config

end Reading

end ProtoWire
