import ProtoWire.Message.Encode
import ProtoWire.Proofs.Ordering
import ProtoWire.Proofs.Written
import ProtoWire.Samples

/-! # Predicted sizes

The size of a message is worked out by one walk over it and the bytes are written by another. Both
agree with the records of the message, so that every length in front of a payload is the number of
bytes behind it. What the caches remember of the running pass has to be right for this, and working
out sizes keeps it right.
-/

namespace ProtoWire

/-! ## Records and payloads -/

namespace UnknownField

@[simp]
theorem encodeAll_nil : encodeAll [] = [] := rfl

@[simp]
theorem encodeAll_cons (record : UnknownField) (records : List UnknownField) :
    encodeAll (record :: records) = record.encode ++ encodeAll records := List.flatMap_cons

@[simp]
theorem encodeAll_append (records records' : List UnknownField) :
    encodeAll (records ++ records') = encodeAll records ++ encodeAll records' :=
  List.flatMap_append

theorem encode_mk (number : UInt32) (payload : UnknownValue) :
    encode ⟨number, payload⟩ = Tag.encodeKey number payload.wireType ++ payload.encode := rfl

theorem encode_delimited (number : UInt32) (payload : Bytes) :
    encode ⟨number, .lengthDelimited payload⟩ =
      Tag.encodeKey number .len ++ (encodeLength payload.length ++ payload) := rfl

theorem length_encode_mk {number : UInt32} (hnumber : Tag.inRange number = true)
    (payload : UnknownValue) :
    (encode ⟨number, payload⟩).length = Tag.keySize number + payload.size :=
  length_encode hnumber

end UnknownField

namespace UnknownValue

theorem size_of_fixedWidth {payload : UnknownValue} {width : Nat}
    (hwidth : payload.wireType.fixedWidth? = some width) : payload.size = width := by
  cases payload with
  | varint | lengthDelimited => cases hwidth
  | fixed32 | fixed64 =>
      cases hwidth
      rfl

end UnknownValue

/-- The captured records have numbers in range. -/
def UnknownFieldSet.Numbered (set : UnknownFieldSet) : Prop :=
  ∀ field ∈ set.fields, Tag.inRange field.number = true

theorem UnknownFieldSet.Numbered.size_eq {set : UnknownFieldSet} (hset : set.Numbered) :
    set.size = (UnknownField.encodeAll set.fields).length := by
  obtain ⟨fields⟩ := set
  induction fields with
  | nil => rfl
  | cons field fields ih =>
      have hfields := ih fun other hother => hset other (List.mem_cons_of_mem field hother)
      have hfield := UnknownField.length_encode (hset field List.mem_cons_self)
      rw [UnknownField.encodeAll_cons, List.length_append, hfield, ← hfields]
      rfl

/-! ## Exactness of the parts -/

/-- A value is written as its payload, in as many bytes as predicted. -/
structure Value.Exact (catalog : Catalog) (pass : Pass) (type : ValueType) (value : Value) :
    Prop where
  write_eq : value.write catalog pass type = (value.payload catalog type).encode
  size_eq : value.size catalog pass type = (value.payload catalog type).size
  wireType_eq : (value.payload catalog type).wireType = type.wireType

/-- A message is written as its records, in as many bytes as predicted. -/
structure Message.Exact (catalog : Catalog) (pass : Pass) (schema : MessageSchema)
    (message : Message) : Prop where
  write_eq : message.writeBody catalog pass schema = message.body catalog schema
  size_eq : message.bodySize catalog pass schema = (message.body catalog schema).length

section Lists

variable {catalog : Catalog} {pass : Pass} {type : ValueType} {values : List Value}

theorem writePayloads_eq (hvalues : ∀ value ∈ values, value.Exact catalog pass type) :
    writePayloads catalog pass type values =
      (valuePayloads catalog type values).flatMap (·.encode) := by
  induction values with
  | nil => rfl
  | cons value values ih =>
      have hvalue := hvalues value List.mem_cons_self
      rw [writePayloads, valuePayloads, List.flatMap_cons, hvalue.write_eq,
        ih fun other hother => hvalues other (List.mem_cons_of_mem value hother)]

theorem valuesSize_eq (hvalues : ∀ value ∈ values, value.Exact catalog pass type) :
    valuesSize catalog pass type values =
      ((valuePayloads catalog type values).flatMap (·.encode)).length := by
  induction values with
  | nil => rfl
  | cons value values ih =>
      have hvalue := hvalues value List.mem_cons_self
      rw [valuesSize, valuePayloads, List.flatMap_cons, List.length_append, hvalue.size_eq,
        UnknownValue.length_encode,
        ih fun other hother => hvalues other (List.mem_cons_of_mem value hother)]

/-- Elements of a fixed width are as many bytes as counted. -/
theorem packedRunSize_eq (hvalues : ∀ value ∈ values, value.Exact catalog pass type) :
    packedRunSize type values.length (valuesSize catalog pass type values) =
      ((valuePayloads catalog type values).flatMap (·.encode)).length := by
  rw [packedRunSize]
  cases hwidth : type.wireType.fixedWidth? with
  | none => exact valuesSize_eq hvalues
  | some width =>
      dsimp only
      induction values with
      | nil => rfl
      | cons value values ih =>
          have hvalue := hvalues value List.mem_cons_self
          have hsize : (value.payload catalog type).size = width :=
            UnknownValue.size_of_fixedWidth (by rw [hvalue.wireType_eq, hwidth])
          rw [valuePayloads, List.flatMap_cons, List.length_append, UnknownValue.length_encode,
            hsize, ← ih fun other hother => hvalues other (List.mem_cons_of_mem value hother),
            List.length_cons, Nat.mul_succ, Nat.add_comm]

theorem writeElements_eq {number : UInt32}
    (hvalues : ∀ value ∈ values, value.Exact catalog pass type) :
    writeElements catalog pass number type values =
      UnknownField.encodeAll ((valuePayloads catalog type values).map (⟨number, ·⟩)) := by
  induction values with
  | nil => rfl
  | cons value values ih =>
      have hvalue := hvalues value List.mem_cons_self
      rw [writeElements, valuePayloads, List.map_cons, UnknownField.encodeAll_cons,
        UnknownField.encode, hvalue.write_eq, hvalue.wireType_eq, List.append_assoc,
        ih fun other hother => hvalues other (List.mem_cons_of_mem value hother)]

theorem elementsSize_eq {number : UInt32} (hnumber : Tag.inRange number = true)
    (hvalues : ∀ value ∈ values, value.Exact catalog pass type) :
    values.length * Tag.keySize number + valuesSize catalog pass type values =
      (UnknownField.encodeAll
        ((valuePayloads catalog type values).map (⟨number, ·⟩))).length := by
  induction values with
  | nil => rw [List.length_nil, Nat.zero_mul]; rfl
  | cons value values ih =>
      have hvalue := hvalues value List.mem_cons_self
      have hrest := ih fun other hother => hvalues other (List.mem_cons_of_mem value hother)
      rw [valuesSize, valuePayloads, List.map_cons, UnknownField.encodeAll_cons,
        List.length_append, UnknownField.length_encode_mk hnumber, ← hrest, hvalue.size_eq,
        List.length_cons, Nat.succ_mul]
      omega

variable {entries : List (Scalar × Value)}

theorem length_entry (key value : UnknownValue) :
    (UnknownField.encodeAll [⟨1, key⟩, ⟨2, value⟩]).length =
      mapEntrySize key.size value.size := by
  simp only [UnknownField.encodeAll_cons, UnknownField.encodeAll_nil, List.append_nil,
    List.length_append]
  rw [UnknownField.length_encode_mk (by decide), UnknownField.length_encode_mk (by decide)]
  rfl

theorem writeMapEntries_eq {number : UInt32}
    (hvalues : ∀ entry ∈ entries, entry.2.Exact catalog pass type) :
    writeMapEntries catalog pass number type entries =
      UnknownField.encodeAll ((entryPayloads catalog type entries).map (⟨number, ·⟩)) := by
  induction entries with
  | nil => rfl
  | cons entry entries ih =>
      obtain ⟨key, value⟩ := entry
      have hvalue := hvalues (key, value) List.mem_cons_self
      have hlength := length_entry key.payload (value.payload catalog type)
      rw [Scalar.size_payload, ← hvalue.size_eq] at hlength
      rw [writeMapEntries, entryPayloads, List.map_cons, UnknownField.encodeAll_cons,
        ih fun other hother => hvalues other (List.mem_cons_of_mem _ hother)]
      rw [entryPayload, UnknownField.encode_delimited, hlength]
      simp only [UnknownField.encodeAll_cons, UnknownField.encodeAll_nil, UnknownField.encode_mk,
        Scalar.encode_payload, Scalar.wireType_payload, hvalue.write_eq, hvalue.wireType_eq,
        List.append_assoc, List.nil_append]

theorem mapEntriesSize_eq {number : UInt32} (hnumber : Tag.inRange number = true)
    (hvalues : ∀ entry ∈ entries, entry.2.Exact catalog pass type) :
    mapEntriesSize catalog pass number type entries =
      (UnknownField.encodeAll
        ((entryPayloads catalog type entries).map (⟨number, ·⟩))).length := by
  induction entries with
  | nil => rfl
  | cons entry entries ih =>
      obtain ⟨key, value⟩ := entry
      have hvalue := hvalues (key, value) List.mem_cons_self
      rw [mapEntriesSize, entryPayloads, List.map_cons, UnknownField.encodeAll_cons,
        List.length_append, UnknownField.length_encode_mk hnumber, entryPayload, UnknownValue.size,
        length_entry, Scalar.size_payload,
        ih fun other hother => hvalues other (List.mem_cons_of_mem _ hother), hvalue.size_eq]

end Lists

/-! ## Exactness of the whole -/

/-- An entry whose numbers are in range and which is absent only where that may be. -/
def Entry.Declarable (entry : Entry) : Prop :=
  (∀ number ∈ entry.numbers, Tag.inRange number = true) ∧ entry.optionsSingular = true

theorem Catalog.declarable {catalog : Catalog} (hnumbered : catalog.Numbered)
    (hoptions : catalog.OptionsSingular) (name : String) :
    ∀ entry ∈ (catalog.schema name).entries, entry.Declarable := fun entry hentry =>
  ⟨fun _ hnumber => (hnumbered.schema name).inRange hentry hnumber,
    hoptions.schema name entry hentry⟩

/-- The captured records of a message have numbers in range, and what its cache remembers of the
running pass is the number of bytes of its records. -/
def Message.Countable (catalog : Catalog) (pass : Pass) (schema : MessageSchema)
    (message : Message) : Prop :=
  message.unknown.Numbered ∧
    ∀ size, schema.cachesSize = true → message.cache.find? pass = some size →
      size = (message.body catalog schema).length

/-- The content of an entry is written as its records, in as many bytes as predicted. -/
structure Content.Exact (catalog : Catalog) (pass : Pass) (dialect : Dialect) (entry : Entry)
    (content : Content) : Prop where
  write_eq : content.write catalog pass dialect entry =
    UnknownField.encodeAll (content.records catalog dialect entry)
  size_eq : content.size catalog pass dialect entry =
    (UnknownField.encodeAll (content.records catalog dialect entry)).length

section Exactness

variable {catalog : Catalog} {pass : Pass}

theorem exact_record {number : UInt32} {type : ValueType} {value : Value}
    (hnumber : Tag.inRange number = true) (hvalue : value.Exact catalog pass type) :
    Tag.encodeKey number type.wireType ++ value.write catalog pass type =
        UnknownField.encodeAll [⟨number, value.payload catalog type⟩] ∧
      Tag.keySize number + value.size catalog pass type =
        (UnknownField.encodeAll [⟨number, value.payload catalog type⟩]).length := by
  rw [UnknownField.encodeAll_cons, UnknownField.encodeAll_nil, List.append_nil,
    UnknownField.length_encode_mk hnumber, UnknownField.encode_mk, hvalue.write_eq, hvalue.size_eq,
    hvalue.wireType_eq]
  exact ⟨rfl, rfl⟩

theorem exact_singular {name : String} {number : UInt32} {type : ValueType}
    {optional nonNull : Bool} {value : Value}
    (hentry : (Entry.singular name number type optional nonNull).Declarable)
    (hdefault : value.isDefault catalog pass type = value.isOmitted catalog type)
    (hvalue : type.isPlain = true ∨ value.isOmitted catalog type = false →
      value.Exact catalog pass type) (dialect : Dialect) :
    Content.Exact catalog pass dialect (.singular name number type optional nonNull)
      (.singular value) := by
  have hnumber := hentry.1 number (List.mem_singleton_self number)
  by_cases hwritten : (nonNull || !value.isOmitted catalog type) = true
  · have hpresent := Entry.isPlain_or_of_written hentry.2 hwritten
    obtain ⟨hwrite, hsize⟩ := exact_record hnumber (hvalue hpresent)
    constructor
    · rw [Content.write, Content.records, hdefault, if_pos hwritten, if_pos hwritten, hwrite]
    · rw [Content.size, Content.records, hdefault, if_pos hwritten, if_pos hwritten, hsize]
  · constructor
    · rw [Content.write, Content.records, hdefault, if_neg hwritten, if_neg hwritten]
      rfl
    · rw [Content.size, Content.records, hdefault, if_neg hwritten, if_neg hwritten]
      rfl

theorem exact_repeated {name : String} {number : UInt32} {element : ValueType}
    {packed : Option Bool} {values : List Value} (hnumber : Tag.inRange number = true)
    (hvalues : ∀ value ∈ values, value.Exact catalog pass element) (dialect : Dialect) :
    Content.Exact catalog pass dialect (.repeated name number element packed)
      (.repeated values) := by
  by_cases hempty : values.isEmpty = true
  · constructor
    · rw [Content.write, Content.records, if_pos hempty, if_pos hempty]
      rfl
    · rw [Content.size, Content.records, if_pos hempty, if_pos hempty]
      rfl
  · by_cases hpacks : dialect.packs element.fieldType packed = true
    · have hrun := packedRunSize_eq hvalues
      constructor
      · rw [Content.write, Content.records, if_neg hempty, if_neg hempty, if_pos hpacks,
          if_pos hpacks, hrun, writePayloads_eq hvalues, UnknownField.encodeAll_cons,
          UnknownField.encode_delimited, UnknownField.encodeAll_nil, List.append_nil]
      · rw [Content.size, Content.records, if_neg hempty, if_neg hempty, if_pos hpacks,
          if_pos hpacks, hrun, UnknownField.encodeAll_cons, UnknownField.encodeAll_nil,
          List.append_nil, UnknownField.length_encode_mk hnumber, UnknownValue.size]
    · constructor
      · rw [Content.write, Content.records, if_neg hempty, if_neg hempty, if_neg hpacks,
          if_neg hpacks, writeElements_eq hvalues]
      · rw [Content.size, Content.records, if_neg hempty, if_neg hempty, if_neg hpacks,
          if_neg hpacks, elementsSize_eq hnumber hvalues]

/-- A message is written as its records when its contents are, and a remembered size is right. -/
theorem exact_message {schema : MessageSchema} {contents : List Content} {unknown : UnknownFieldSet}
    {cache : SizeCache} (hcountable : (Message.mk contents unknown cache).Countable catalog pass schema)
    (hwrite : writeContents catalog pass schema.dialect schema.entries contents =
      UnknownField.encodeAll (contentsRecords catalog schema.dialect schema.entries contents))
    (hsize : contentsSize catalog pass schema.dialect schema.entries contents =
      (UnknownField.encodeAll
        (contentsRecords catalog schema.dialect schema.entries contents)).length) :
    (Message.mk contents unknown cache).Exact catalog pass schema := by
  have hunknown := hcountable.1.size_eq
  have hbody : (Message.mk contents unknown cache).body catalog schema =
      UnknownField.encodeAll (contentsRecords catalog schema.dialect schema.entries contents) ++
        UnknownField.encodeAll unknown.fields := by
    rw [Message.body, Message.records, UnknownField.encodeAll_append]
  constructor
  · rw [Message.writeBody, hbody, hwrite]
    rfl
  · rw [Message.bodySize]
    split
    next size hremembered =>
      cases hcaches : schema.cachesSize with
      | false =>
          rw [hcaches] at hremembered
          cases hremembered
      | true =>
          rw [hcaches] at hremembered
          exact hcountable.2 size hcaches hremembered
    next =>
      rw [hbody, List.length_append, hsize]
      exact congrArg _ hunknown

/-- Values, messages and contents are as many bytes as predicted when their parts are. -/
theorem inherits_exact
    (hdeclarable : ∀ name, ∀ entry ∈ (catalog.schema name).entries, entry.Declarable) :
    Inherits catalog (Message.Countable catalog pass)
      (fun type value => type.isSingular = true →
        value.isDefault catalog pass type = value.isOmitted catalog type ∧
          (type.isPlain = true ∨ value.isOmitted catalog type = false →
            value.Exact catalog pass type))
      (fun schema message => (∀ entry ∈ schema.entries, entry.Declarable) →
        message.Exact catalog pass schema)
      (fun entries contents => (∀ entry ∈ entries, entry.Declarable) → ∀ dialect,
        writeContents catalog pass dialect entries contents =
            UnknownField.encodeAll (contentsRecords catalog dialect entries contents) ∧
          contentsSize catalog pass dialect entries contents =
            (UnknownField.encodeAll (contentsRecords catalog dialect entries contents)).length)
      (fun entry content => entry.Declarable → ∀ dialect,
        content.Exact catalog pass dialect entry) where
  scalar type scalar htype _ := by
    refine ⟨rfl, fun _ => ⟨?_, ?_, ?_⟩⟩
    · exact scalar.encode_payload.symm
    · exact scalar.size_payload.symm
    · subst htype
      exact scalar.wireType_payload
  enumeration schema value _ := ⟨rfl, fun _ => ⟨rfl, rfl, rfl⟩⟩
  message name message hmessage _ := by
    have hexact := hmessage (hdeclarable name)
    refine ⟨?_, fun _ => ⟨?_, ?_, rfl⟩⟩
    · rw [Value.isDefault, Value.isOmitted, hexact.size_eq, Message.body]
      cases hrecords : message.records catalog (catalog.schema name) with
      | nil => rfl
      | cons record records =>
          -- A single record takes bytes, so a body without bytes is one without records.
          have hpositive := List.length_pos_iff.mpr record.encode_ne_nil
          rw [UnknownField.encodeAll_cons, List.length_append, List.isEmpty_cons, beq_eq_false_iff_ne]
          omega
    · rw [Value.write, hexact.size_eq, hexact.write_eq]
      rfl
    · rw [Value.size, hexact.size_eq]
      rfl
  absent inner _ := by
    refine ⟨rfl, fun hpresent => ?_⟩
    rcases hpresent with hplain | hwritten
    · cases hplain
    · cases hwritten
  present inner value hvalue hsingular := by
    have hplain : inner.isPlain = true := hsingular
    have hinner := (hvalue (ValueType.isSingular_of_isPlain hplain)).2 (.inl hplain)
    exact ⟨rfl, fun _ => ⟨hinner.write_eq, hinner.size_eq, hinner.wireType_eq⟩⟩
  reference converter wire held value hvalue hsingular := by
    obtain ⟨hdefault, hexact⟩ := hvalue hsingular
    refine ⟨hdefault, fun hwritten => ?_⟩
    have hwire := hexact hwritten
    exact ⟨hwire.write_eq, hwire.size_eq, hwire.wireType_eq⟩
  body schema contents unknown cache hcountable _ hcontents hentries := by
    obtain ⟨hwrite, hsize⟩ := hcontents hentries schema.dialect
    exact exact_message hcountable hwrite hsize
  nil _ dialect := ⟨rfl, rfl⟩
  cons entry content entries contents hcontent hcontents hentries dialect := by
    have hfirst := hcontent (hentries entry List.mem_cons_self) dialect
    obtain ⟨hwrite, hsize⟩ := hcontents
      (fun other hother => hentries other (List.mem_cons_of_mem entry hother)) dialect
    constructor
    · rw [writeContents, contentsRecords, UnknownField.encodeAll_append, hfirst.write_eq, hwrite]
    · rw [contentsSize, contentsRecords, UnknownField.encodeAll_append, List.length_append,
        hfirst.size_eq, hsize]
  singular name number type optional nonNull value _ hvalue hentry dialect := by
    obtain ⟨hdefault, hexact⟩ := hvalue (Entry.isSingular_of_optionsSingular hentry.2)
    exact exact_singular hentry hdefault hexact dialect
  repeated name number element packed values hvalues hentry dialect := by
    have hplain : element.isPlain = true := hentry.2
    refine exact_repeated (hentry.1 number (List.mem_singleton_self number)) ?_ dialect
    intro value hvalue
    exact (hvalues value hvalue (ValueType.isSingular_of_isPlain hplain)).2 (.inl hplain)
  mapping name number key type order entries hkeys horder hvalues hentry dialect := by
    have hplain : type.isPlain = true := hentry.2
    have hexact : ∀ entry ∈ entries, entry.2.Exact catalog pass type := fun entry hmem =>
      (hvalues entry hmem (ValueType.isSingular_of_isPlain hplain)).2 (.inl hplain)
    exact ⟨writeMapEntries_eq hexact,
      mapEntriesSize_eq (hentry.1 number (List.mem_singleton_self number)) hexact⟩
  unset name schema _ dialect := ⟨rfl, rfl⟩
  chosen name schema required place member value hmember hvalue hentry dialect := by
    have hmem := List.mem_of_getElem? hmember
    have hplain : member.type.isPlain = true := List.all_eq_true.mp hentry.2 member hmem
    have hnumber := hentry.1 member.number (List.mem_map_of_mem hmem)
    have hexact := (hvalue (ValueType.isSingular_of_isPlain hplain)).2 (.inl hplain)
    obtain ⟨hwrite, hsize⟩ := exact_record hnumber hexact
    constructor
    · rw [Content.write, Content.records, hmember, ← hwrite]
    · rw [Content.size, Content.records, hmember, ← hsize]

theorem Message.Conforms.exact (hnumbered : catalog.Numbered) (hoptions : catalog.OptionsSingular)
    {name : String} {message : Message}
    (hmessage : message.Conforms catalog (Message.Countable catalog pass) (catalog.schema name)) :
    message.Exact catalog pass (catalog.schema name) :=
  (inherits_exact (catalog.declarable hnumbered hoptions)).of_message hmessage
    (catalog.declarable hnumbered hoptions name)

end Exactness

/-! ## Working out sizes -/

section Settling

variable {catalog : Catalog} {pass : Pass}

theorem settleValues_eq (type : ValueType) (values : List Value) :
    settleValues catalog pass type values =
      values.map fun value => value.settle catalog pass type := by
  induction values with
  | nil => rfl
  | cons value values ih => rw [settleValues, ih, List.map_cons]

theorem settleEntries_eq (type : ValueType) (entries : List (Scalar × Value)) :
    settleEntries catalog pass type entries =
      entries.map fun entry => (entry.1, entry.2.settle catalog pass type) := by
  induction entries with
  | nil => rfl
  | cons entry entries ih => rw [settleEntries, ih, List.map_cons]

theorem Content.settle_chosen {name : String} {schema : OneofSchema} {required : Bool} {place : Nat}
    {member : Member} {value : Value} (hmember : schema.members[place]? = some member) :
    Content.settle catalog pass (.oneof name schema required) (.chosen place value) =
      .chosen place (value.settle catalog pass member.type) := by
  rw [Content.settle, hmember]

theorem countable_empty {schema : MessageSchema} {contents : List Content}
    {unknown : UnknownFieldSet} (hunknown : unknown.Numbered) :
    Message.Countable catalog pass schema (.mk contents unknown .empty) := by
  refine ⟨hunknown, fun size _ hremembered => ?_⟩
  cases pass <;> cases hremembered

theorem bodySize_empty (schema : MessageSchema) (contents : List Content)
    (unknown : UnknownFieldSet) :
    (Message.mk contents unknown .empty).bodySize catalog pass schema =
      contentsSize catalog pass schema.dialect schema.entries contents + unknown.size := by
  rw [Message.bodySize]
  cases schema.cachesSize <;> cases pass <;> rfl

/-- What is found after a size is remembered is that size. -/
theorem eq_of_find_remember {cache : SizeCache} {size found : Nat}
    (hfound : (cache.remember pass size).find? pass = some found) : found = size := by
  cases pass with
  | none => cases hfound
  | some pass =>
      simp only [SizeCache.remember, SizeCache.find?, if_true, Option.some.injEq] at hfound
      exact hfound.symm

/-- Working out sizes leaves the records as they are, and what the caches remember stays right. -/
theorem inherits_settled
    (hdeclarable : ∀ name, ∀ entry ∈ (catalog.schema name).entries, entry.Declarable) :
    Inherits catalog (Message.Countable catalog pass)
      (fun type value =>
        (value.settle catalog pass type).payload catalog type = value.payload catalog type ∧
          (value.settle catalog pass type).isOmitted catalog type = value.isOmitted catalog type ∧
            (value.settle catalog pass type).Conforms catalog (Message.Countable catalog pass) type)
      (fun schema message => (∀ entry ∈ schema.entries, entry.Declarable) →
        (message.settle catalog pass schema).records catalog schema =
            message.records catalog schema ∧
          (message.settle catalog pass schema).Conforms catalog (Message.Countable catalog pass)
            schema)
      (fun entries contents =>
        (∀ dialect, contentsRecords catalog dialect entries
            (settleContents catalog pass entries contents) =
          contentsRecords catalog dialect entries contents) ∧
        ContentsConform catalog (Message.Countable catalog pass) entries
          (settleContents catalog pass entries contents))
      (fun entry content =>
        (∀ dialect, (content.settle catalog pass entry).records catalog dialect entry =
          content.records catalog dialect entry) ∧
        (content.settle catalog pass entry).Conforms catalog (Message.Countable catalog pass)
          entry) where
  scalar type scalar htype := ⟨rfl, rfl, .scalar type scalar htype⟩
  enumeration schema value := ⟨rfl, rfl, .enumeration schema value⟩
  message name message hmessage := by
    obtain ⟨hrecords, hconforms⟩ := hmessage (hdeclarable name)
    refine ⟨?_, ?_, .message name _ hconforms⟩
    · rw [Value.settle, Value.payload, hrecords]
      rfl
    · rw [Value.settle, Value.isOmitted, hrecords]
      rfl
  absent inner := ⟨rfl, rfl, .absent inner⟩
  present inner value hvalue := ⟨hvalue.1, rfl, .present inner _ hvalue.2.2⟩
  reference converter wire held value hvalue :=
    ⟨hvalue.1, hvalue.2.1, .reference converter wire .wire _ hvalue.2.2⟩
  body schema contents unknown cache hcountable hcontents hsettled hentries := by
    rw [Message.settle]
    split
    next => exact ⟨rfl, .mk schema contents unknown cache hcountable hcontents⟩
    -- The size that is remembered is worked out from the settled contents, as if the cache were empty.
    next =>
      obtain ⟨hrecords, hconforms⟩ := hsettled
      have hexact := (inherits_exact hdeclarable).of_message
        (.mk schema _ unknown .empty (countable_empty hcountable.1) hconforms) hentries
      have hsize := hexact.size_eq
      rw [bodySize_empty] at hsize
      refine ⟨?_, .mk schema _ unknown _ ⟨hcountable.1, fun size hcaches hremembered => ?_⟩ hconforms⟩
      · rw [Message.records, hrecords]
        rfl
      · change (if schema.cachesSize = true then _ else cache).find? pass = some size at hremembered
        rw [if_pos hcaches] at hremembered
        rw [eq_of_find_remember hremembered, hsize]
        rfl
  nil := ⟨fun _ => rfl, .nil⟩
  cons entry content entries contents hcontent hcontents := by
    refine ⟨fun dialect => ?_, .cons _ _ _ _ hcontent.2 hcontents.2⟩
    rw [settleContents, contentsRecords, contentsRecords, hcontent.1, hcontents.1]
  singular name number type optional nonNull value _ hvalue := by
    refine ⟨fun dialect => ?_, .singular name number type optional nonNull _ hvalue.2.2⟩
    rw [Content.settle, Content.records, Content.records, hvalue.1, hvalue.2.1]
  repeated name number element packed values hvalues := by
    have hpayloads : valuePayloads catalog element (settleValues catalog pass element values) =
        valuePayloads catalog element values := by
      rw [settleValues_eq, valuePayloads_eq, valuePayloads_eq, List.map_map]
      exact List.map_congr_left fun value hvalue => (hvalues value hvalue).1
    refine ⟨fun dialect => ?_, ?_⟩
    · rw [Content.settle, Content.records, Content.records, hpayloads, settleValues_eq,
        List.isEmpty_map]
    · rw [Content.settle, settleValues_eq]
      exact .repeated_map fun value hvalue => (hvalues value hvalue).2.2
  mapping name number key type order entries hkeys horder hvalues := by
    have hpayloads : entryPayloads catalog type (settleEntries catalog pass type entries) =
        entryPayloads catalog type entries := by
      rw [settleEntries_eq, entryPayloads_eq, entryPayloads_eq, List.map_map]
      exact List.map_congr_left fun entry hentry =>
        congrArg (entryPayload entry.1.payload) (hvalues entry hentry).1
    refine ⟨fun dialect => ?_, ?_⟩
    · rw [Content.settle, Content.records, Content.records, hpayloads]
    · rw [Content.settle, settleEntries_eq]
      exact .mapping_map hkeys horder fun entry hentry => (hvalues entry hentry).2.2
  unset name schema := ⟨fun _ => rfl, .unset name schema⟩
  chosen name schema required place member value hmember hvalue := by
    rw [Content.settle_chosen hmember]
    refine ⟨fun dialect => ?_, ?_⟩
    · rw [Content.records, Content.records, hmember]
      simp only [hvalue.1]
    · exact .chosen name schema required place member _ hmember hvalue.2.2

/-- A message of which the caches remember what is right is left behind as one with the same
records. -/
theorem Message.Conforms.settled (hnumbered : catalog.Numbered)
    (hoptions : catalog.OptionsSingular) {name : String} {message : Message}
    (hmessage : message.Conforms catalog (Message.Countable catalog pass) (catalog.schema name)) :
    (message.settle catalog pass (catalog.schema name)).records catalog (catalog.schema name) =
        message.records catalog (catalog.schema name) ∧
      (message.settle catalog pass (catalog.schema name)).Conforms catalog
        (Message.Countable catalog pass) (catalog.schema name) :=
  (inherits_settled (catalog.declarable hnumbered hoptions)).of_message hmessage
    (catalog.declarable hnumbered hoptions name)

end Settling

/-! ## All levels, in and out of passes -/

namespace Message

/-- What the caches in a message remember of a pass is the number of bytes of its records. -/
def CachesExact (catalog : Catalog) (pass : Pass) (schema : MessageSchema) (message : Message) :
    Prop :=
  message.Conforms catalog (fun schema message => ∀ size, schema.cachesSize = true →
    message.cache.find? pass = some size → size = (message.body catalog schema).length) schema

/-- No cache in a message remembers anything of a pass. -/
def CachesUnused (catalog : Catalog) (pass : Pass) (schema : MessageSchema) (message : Message) :
    Prop :=
  message.Conforms catalog (fun _ message => message.cache.find? pass = none) schema

variable {catalog : Catalog} {name : String} {message : Message}

theorem CachesUnused.exact {pass : Pass} {schema : MessageSchema}
    (hunused : message.CachesUnused catalog pass schema) :
    message.CachesExact catalog pass schema := by
  refine Message.Conforms.mono hunused fun schema message hnone size _ hsome => ?_
  rw [hnone] at hsome
  cases hsome

/-- What a message is written as in a pass of which the caches remember what is right, before and
after its sizes are worked out. -/
theorem CachesExact.settled (hnumbered : catalog.Numbered) (hoptions : catalog.OptionsSingular)
    {pass : Pass}
    (hmessage : message.Conforms catalog (fun _ message => message.unknown.Numbered)
      (catalog.schema name))
    (hexact : message.CachesExact catalog pass (catalog.schema name)) :
    let settled := message.settle catalog pass (catalog.schema name)
    message.Exact catalog pass (catalog.schema name) ∧
      settled.Exact catalog pass (catalog.schema name) ∧
      settled.records catalog (catalog.schema name) =
        message.records catalog (catalog.schema name) ∧
      settled.CachesExact catalog pass (catalog.schema name) := by
  have hcountable : message.Conforms catalog (Message.Countable catalog pass)
      (catalog.schema name) := hmessage.combine hexact fun _ _ hunknown hcache => ⟨hunknown, hcache⟩
  obtain ⟨hrecords, hsettled⟩ := hcountable.settled hnumbered hoptions
  exact ⟨hcountable.exact hnumbered hoptions, hsettled.exact hnumbered hoptions, hrecords,
    hsettled.mono fun _ _ hcountable => hcountable.2⟩

/-- Let the captured records in a message have numbers in range. Outside of any pass, and in a pass
of which the caches remember nothing or what is right, the message is written as its records, in
which every length in front of a payload is the number of bytes of the payload, and in as many bytes
as predicted. Working out its sizes leaves a message with the same records of which this is true
again. -/
theorem sizes_exact (hnumbered : catalog.Numbered) (hoptions : catalog.OptionsSingular)
    (hmessage : message.Conforms catalog (fun _ message => message.unknown.Numbered)
      (catalog.schema name)) :
    message.Exact catalog none (catalog.schema name) ∧
      ∀ pass, message.CachesUnused catalog (some pass) (catalog.schema name) ∨
          message.CachesExact catalog (some pass) (catalog.schema name) →
        let settled := message.settle catalog (some pass) (catalog.schema name)
        message.Exact catalog (some pass) (catalog.schema name) ∧
          settled.Exact catalog (some pass) (catalog.schema name) ∧
          settled.records catalog (catalog.schema name) =
            message.records catalog (catalog.schema name) ∧
          settled.CachesExact catalog (some pass) (catalog.schema name) := by
  constructor
  · have houtside : message.CachesExact catalog none (catalog.schema name) := by
      refine Message.Conforms.mono hmessage fun schema message _ size _ hremembered => ?_
      cases hremembered
    exact (houtside.settled hnumbered hoptions hmessage).1
  · intro pass hcaches
    have hexact : message.CachesExact catalog (some pass) (catalog.schema name) := by
      rcases hcaches with hunused | hexact
      · exact hunused.exact
      · exact hexact
    exact hexact.settled hnumbered hoptions hmessage

/-- In a new pass a message is encoded as its body. -/
theorem CachesUnused.encode_eq (hnumbered : catalog.Numbered) (hoptions : catalog.OptionsSingular)
    (hmessage : message.Conforms catalog (fun _ message => message.unknown.Numbered)
      (catalog.schema name)) {pass : Nat}
    (hunused : message.CachesUnused catalog (some pass) (catalog.schema name)) :
    (catalog.encode name pass message).answer = message.body catalog (catalog.schema name) := by
  obtain ⟨_, hsettled, hrecords, _⟩ := hunused.exact.settled hnumbered hoptions hmessage
  exact hsettled.write_eq.trans (congrArg UnknownField.encodeAll hrecords)

/-- A message of which the running pass has measured a part already. -/
theorem sizes_exact_partly_measured :
    let messages : Catalog := ⟨[("Cached", Samples.cached)]⟩
    let child : Message :=
      .mk [.singular (.scalar (.string "")), .repeated []] .empty ⟨some ⟨3, 0⟩⟩
    let parent : Message :=
      .mk [.singular (.scalar (.string "a")), .repeated [.message child]] .empty ⟨some ⟨2, 9⟩⟩
    parent.CachesExact messages (some 3) (messages.schema "Cached") ∧
      parent.Exact messages none (messages.schema "Cached") ∧
      parent.Exact messages (some 3) (messages.schema "Cached") := by
  intro messages child parent
  have hconforms : ∀ holds : MessageSchema → Message → Prop, holds Samples.cached child →
      holds Samples.cached parent → parent.Conforms messages holds (messages.schema "Cached") := by
    intro holds hchild hparent
    have hname : ∀ text, (Content.singular (.scalar (.string text))).Conforms messages holds
        (Samples.scalar "name" 1 .string) := fun text =>
      .singular _ _ _ _ _ _ (.scalar _ _ rfl)
    have hempty : child.Conforms messages holds (messages.schema "Cached") :=
      .mk _ _ _ _ hchild (.cons _ _ _ _ (hname "") (.cons _ _ _ _ (.repeated _ _ _ _ [] (by simp))
        .nil))
    refine .mk _ _ _ _ hparent (.cons _ _ _ _ (hname "a") (.cons _ _ _ _ ?_ .nil))
    refine .repeated _ _ _ _ _ fun value hvalue => ?_
    rw [List.mem_singleton.mp hvalue]
    exact .message "Cached" child hempty
  have hcaches : parent.CachesExact messages (some 3) (messages.schema "Cached") := by
    apply hconforms
    · intro size _ hremembered
      cases hremembered
      rfl
    · intro size _ hremembered
      cases hremembered
  have hmessage := hconforms (fun _ message => message.unknown.Numbered)
    (fun _ hfield => (List.not_mem_nil hfield).elim) (fun _ hfield => (List.not_mem_nil hfield).elim)
  obtain ⟨houtside, hinside⟩ := sizes_exact (by decide) (by decide) hmessage
  exact ⟨hcaches, houtside, (hinside 3 (.inr hcaches)).1⟩

end Message

end ProtoWire
