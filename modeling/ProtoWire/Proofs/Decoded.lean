import ProtoWire.Proofs.RoundTrip

/-! # Decoded messages

A message that was decoded is a message of its type, with captured records that no entry takes,
nothing remembered, references in their wire form, variants that come first among those of their
number and maps in the order of their keys. Writing and reading it changes the sign of zeros at
most.
-/

namespace ProtoWire

/-- Whether the keys of an entry, if it is a map, are of a type for keys. -/
def Entry.keyed : Entry → Bool
  | .map _ _ key _ _ => key.isMapKey
  | _ => true

/-- The maps of all message types have keys of a type for keys. -/
def Catalog.Keyed (catalog : Catalog) : Prop :=
  ∀ listed ∈ catalog.messages, ∀ entry ∈ listed.2.entries, entry.keyed = true

instance : DecidablePred Catalog.Keyed := fun _ =>
  inferInstanceAs (Decidable (∀ _ ∈ _, ∀ _ ∈ _, _))

theorem Catalog.Keyed.schema {catalog : Catalog} (hkeyed : catalog.Keyed) (name : String) :
    ∀ entry ∈ (catalog.schema name).entries, entry.keyed = true :=
  @Catalog.schema_of_forall catalog (fun schema => ∀ entry ∈ schema.entries, entry.keyed = true)
    hkeyed name fun _ hentry => (List.not_mem_nil hentry).elim

/-- A message as decoding makes them: its captured records are apart from its entries and it
remembers no size. -/
structure Message.Fresh (schema : MessageSchema) (message : Message) : Prop where
  unknownApart : message.UnknownApart schema
  cache_eq : message.cache = .empty

/-- A value of its type of which only zeros change when it is written and read. -/
structure Value.Decoded (catalog : Catalog) (type : ValueType) (value : Value) : Prop where
  conforms : value.Conforms catalog Message.Fresh type
  received_eq : value.rebuild catalog .received type = value.rebuild catalog .positiveZeros type

/-- A message of its type of which only zeros change when it is written and read. -/
structure Message.Decoded (catalog : Catalog) (schema : MessageSchema) (message : Message) :
    Prop where
  conforms : message.Conforms catalog Message.Fresh schema
  received_eq : message.asReceived catalog schema = message.positiveZeros catalog schema

/-- A content of its entry of which only zeros change when it is written and read. -/
structure Content.Decoded (catalog : Catalog) (entry : Entry) (content : Content) : Prop where
  conforms : content.Conforms catalog Message.Fresh entry
  received_eq : content.rebuild catalog .received entry = content.rebuild catalog .positiveZeros entry

section Parts

variable {catalog : Catalog}

theorem contentsConform_of_zip {holds : MessageSchema → Message → Prop} {entries : List Entry}
    {contents : List Content} (hlength : entries.length = contents.length)
    (hpairs : ∀ pair ∈ entries.zip contents, pair.2.Conforms catalog holds pair.1) :
    ContentsConform catalog holds entries contents := by
  induction entries generalizing contents with
  | nil =>
      rw [List.length_nil, eq_comm, List.length_eq_zero_iff] at hlength
      rw [hlength]
      exact .nil
  | cons entry entries ih =>
      obtain ⟨content, contents, rfl⟩ := List.exists_cons_of_length_eq_add_one hlength.symm
      rw [List.zip_cons_cons] at hpairs
      exact .cons entry content entries contents (hpairs (entry, content) List.mem_cons_self)
        (ih (by simpa using hlength) fun pair hpair => hpairs pair (List.mem_cons_of_mem _ hpair))

/-- A message with decoded contents and no remembered size is decoded. -/
theorem Message.decoded_mk {schema : MessageSchema} {contents : List Content}
    {unknown : UnknownFieldSet} (hlength : schema.entries.length = contents.length)
    (hpairs : ∀ pair ∈ schema.entries.zip contents, pair.2.Decoded catalog pair.1)
    (hunknown : (Message.mk contents unknown .empty).UnknownApart schema) :
    (Message.mk contents unknown .empty).Decoded catalog schema where
  conforms := .mk schema contents unknown .empty ⟨hunknown, rfl⟩
    (contentsConform_of_zip hlength fun pair hpair => (hpairs pair hpair).conforms)
  received_eq := by
    have hcontents : rebuildContents catalog .received schema.entries contents =
        rebuildContents catalog .positiveZeros schema.entries contents := by
      rw [rebuildContents_eq hlength, rebuildContents_eq hlength]
      exact List.map_congr_left fun pair hpair => (hpairs pair hpair).received_eq
    rw [asReceived, positiveZeros, rebuild, rebuild, hcontents]
    rfl

theorem Content.decoded_singular {name : String} {number : UInt32} {type : ValueType}
    {optional nonNull : Bool} {value : Value} (hvalue : value.Decoded catalog type) :
    Content.Decoded catalog (.singular name number type optional nonNull) (.singular value) where
  conforms := .singular name number type optional nonNull value hvalue.conforms
  received_eq := by
    rw [rebuild, rebuild, hvalue.received_eq]
    rfl

theorem Content.decoded_repeated {name : String} {number : UInt32} {element : ValueType}
    {packed : Option Bool} {values : List Value}
    (hvalues : ∀ value ∈ values, value.Decoded catalog element) :
    Content.Decoded catalog (.repeated name number element packed) (.repeated values) where
  conforms := .repeated name number element packed values fun value hvalue =>
    (hvalues value hvalue).conforms
  received_eq := by
    rw [rebuild, rebuild, rebuildValues_eq, rebuildValues_eq]
    exact congrArg Content.repeated
      (List.map_congr_left fun value hvalue => (hvalues value hvalue).received_eq)

/-- A map in the order of its keys stays so. -/
theorem Content.decoded_map {name : String} {number : UInt32} {key : ScalarType} {type : ValueType}
    {order : MapOrder} {entries : List (Scalar × Value)}
    (hkeys : ∀ entry ∈ entries, entry.1.type = key) (hsorted : MapOrder.byKey.Arranges entries)
    (hvalues : ∀ entry ∈ entries, entry.2.Decoded catalog type) :
    Content.Decoded catalog (.map name number key type order) (.mapping entries) where
  conforms := .mapping name number key type order entries hkeys (hsorted.of_byKey order)
    fun entry hentry => (hvalues entry hentry).conforms
  received_eq := by
    have hentries : rebuildEntries catalog .received type entries =
        rebuildEntries catalog .positiveZeros type entries := by
      rw [rebuildEntries_eq, rebuildEntries_eq]
      refine List.map_congr_left fun entry hentry => ?_
      rw [(hvalues entry hentry).received_eq]
    have hstays : sortEntries (rebuildEntries catalog .positiveZeros type entries) =
        rebuildEntries catalog .positiveZeros type entries := by
      rw [rebuildEntries_eq]
      exact sortEntries_of_byKey (hsorted.map _)
    rw [rebuild, rebuild, hentries]
    exact congrArg Content.mapping hstays

theorem Content.decoded_chosen {name : String} {schema : OneofSchema} {required : Bool}
    {place : Nat} {member : Member} {value : Value} (hmember : schema.members[place]? = some member)
    (hvalue : value.Decoded catalog member.type) :
    Content.Decoded catalog (.oneof name schema required) (.chosen place value) where
  conforms := .chosen name schema required place member value hmember hvalue.conforms
  received_eq := by
    rw [rebuild, rebuild, hmember]
    exact congrArg (Content.chosen place) hvalue.received_eq

theorem EnumSchema.number_ofNumber (schema : EnumSchema) (number : Int32) :
    schema.number (schema.ofNumber number) = number := by
  unfold ofNumber
  split
  next place hplace =>
    obtain ⟨hlt, hfound, _⟩ := List.findIdx?_eq_some_iff_getElem.mp hplace
    rw [EnumSchema.number, List.getElem?_eq_getElem hlt]
    exact beq_iff_eq.mp hfound
  next => rfl

theorem Value.decoded_enumeration (schema : EnumSchema) (number : Int32) :
    Value.Decoded catalog (.enumeration schema) (.enumeration (schema.ofNumber number)) where
  conforms := .enumeration schema _
  received_eq := by
    simp only [rebuild, Rewriting.received, Rewriting.positiveZeros, schema.number_ofNumber]

theorem Message.Decoded.value {name : String} {message : Message}
    (hmessage : message.Decoded catalog (catalog.schema name)) :
    Value.Decoded catalog (.message name) (.message message) where
  conforms := .message name message hmessage.conforms
  received_eq := congrArg Value.message hmessage.received_eq

theorem Value.Decoded.present {inner : ValueType} {value : Value}
    (hvalue : value.Decoded catalog inner) :
    Value.Decoded catalog (.option inner) (.present value) where
  conforms := .present inner value hvalue.conforms
  received_eq := congrArg Value.present hvalue.received_eq

theorem Value.Decoded.reference {converter : String} {wire : ValueType} {value : Value}
    (hvalue : value.Decoded catalog wire) :
    Value.Decoded catalog (.converted converter wire) (.reference .wire value) where
  conforms := .reference converter wire .wire value hvalue.conforms
  received_eq := congrArg (Value.reference .wire) hvalue.received_eq

end Parts

/-! ## Defaults -/

section Defaults

variable {catalog : Catalog}

theorem unknownApart_empty {schema : MessageSchema} {contents : List Content} {cache : SizeCache} :
    (Message.mk contents .empty cache).UnknownApart schema where
  numbered _ hfield := (List.not_mem_nil hfield).elim
  accepts_eq _ hfield := (List.not_mem_nil hfield).elim
  eq_empty _ := rfl

theorem decoded_of_typeDefault {message : String → Option Message}
    (hmessage : ∀ name found, message name = some found → found.Decoded catalog (catalog.schema name))
    {type : ValueType} {default : Value} (hdefault : type.default? message = some default) :
    default.Decoded catalog type := by
  induction type generalizing default with
  | scalar type =>
      cases hdefault
      exact ⟨.scalar type type.zero (by cases type <;> rfl), rfl⟩
  | enumeration schema =>
      cases hdefault
      exact Value.decoded_enumeration schema 0
  | message name =>
      obtain ⟨found, hfound, rfl⟩ := Option.map_eq_some_iff.mp hdefault
      exact (hmessage name found hfound).value
  | option inner ih =>
      cases hdefault
      exact ⟨.absent inner, rfl⟩
  | converted converter wire ih =>
      obtain ⟨inner, hinner, rfl⟩ := Option.map_eq_some_iff.mp hdefault
      exact (ih hinner).reference

theorem decoded_of_entryDefault {message : String → Option Message}
    (hmessage : ∀ name found, message name = some found → found.Decoded catalog (catalog.schema name))
    {entry : Entry} {default : Content} (hdefault : entry.default? message = some default) :
    default.Decoded catalog entry := by
  cases entry with
  | singular name number type optional nonNull =>
      obtain ⟨value, hvalue, rfl⟩ := Option.map_eq_some_iff.mp hdefault
      exact Content.decoded_singular (decoded_of_typeDefault hmessage hvalue)
  | repeated name number element packed =>
      cases hdefault
      exact Content.decoded_repeated fun _ hvalue => (List.not_mem_nil hvalue).elim
  | map name number key value order =>
      cases hdefault
      exact Content.decoded_map (fun _ hentry => (List.not_mem_nil hentry).elim) .nil
        fun _ hentry => (List.not_mem_nil hentry).elim
  | oneof name schema required =>
      cases required with
      | true => cases hdefault
      | false =>
          cases hdefault
          exact ⟨.unset name schema, rfl⟩

theorem decoded_of_messageDefault {levels : Nat} {name : String} {message : Message}
    (hdefault : catalog.defaultMessageWithin? levels name = some message) :
    message.Decoded catalog (catalog.schema name) := by
  induction levels generalizing name message with
  | zero => cases hdefault
  | succ levels ih =>
      simp only [Catalog.defaultMessageWithin?, Option.bind_eq_bind, Option.bind_eq_some_iff]
        at hdefault
      obtain ⟨contents, hcontents, hmade⟩ := hdefault
      cases hmade
      obtain ⟨hlength, hpairs⟩ := zip_of_mapM hcontents
      exact Message.decoded_mk hlength
        (fun pair hpair => decoded_of_entryDefault (fun _ _ hfound => ih hfound) (hpairs pair hpair))
        unknownApart_empty

/-- The default of a type that has one is decoded. -/
theorem decoded_default {type : ValueType} (hdefaulted : (catalog.default? type).isSome = true) :
    ((catalog.default? type).getD .absent).Decoded catalog type := by
  obtain ⟨default, hdefault⟩ := Option.isSome_iff_exists.mp hdefaulted
  rw [hdefault]
  exact decoded_of_typeDefault (fun _ _ hfound => decoded_of_messageDefault hfound) hdefault

end Defaults

/-! ## Payloads -/

section Payloads

variable {catalog : Catalog} {inner : String → Bytes → Option Message}

/-- Whether the messages that nested payloads are made into are decoded. -/
def DecodesMessages (catalog : Catalog) (inner : String → Bytes → Option Message) : Prop :=
  ∀ name bytes message, inner name bytes = some message →
    message.Decoded catalog (catalog.schema name)

theorem ScalarType.type_of_interpret {type : ScalarType} {payload : UnknownValue} {scalar : Scalar}
    (hscalar : type.interpret payload = some scalar) : scalar.type = type := by
  cases type with
  | string =>
      cases payload with
      | lengthDelimited payload =>
          obtain ⟨text, _, rfl⟩ := Option.map_eq_some_iff.mp hscalar
          rfl
      | varint | fixed32 | fixed64 => cases hscalar
  | _ =>
      cases payload <;> cases hscalar
      rfl

theorem decoded_of_interpret (hinner : DecodesMessages catalog inner) {type : ValueType}
    {payload : UnknownValue} {value : Value} (hvalue : type.interpret inner payload = some value) :
    value.Decoded catalog type := by
  induction type generalizing value with
  | scalar type =>
      obtain ⟨scalar, hscalar, rfl⟩ := Option.map_eq_some_iff.mp hvalue
      exact ⟨.scalar type scalar (ScalarType.type_of_interpret hscalar), rfl⟩
  | enumeration schema =>
      cases payload with
      | varint word =>
          cases hvalue
          exact Value.decoded_enumeration schema _
      | fixed32 | fixed64 | lengthDelimited => cases hvalue
  | message name =>
      cases payload with
      | lengthDelimited payload =>
          obtain ⟨message, hmessage, rfl⟩ := Option.map_eq_some_iff.mp hvalue
          exact (hinner name payload message hmessage).value
      | varint | fixed32 | fixed64 => cases hvalue
  | option type ih =>
      obtain ⟨held, hheld, rfl⟩ := Option.map_eq_some_iff.mp hvalue
      exact (ih hheld).present
  | converted converter wire ih =>
      obtain ⟨held, hheld, rfl⟩ := Option.map_eq_some_iff.mp hvalue
      exact (ih hheld).reference

theorem decoded_of_elements (hinner : DecodesMessages catalog inner) {element : ValueType}
    {payload : UnknownValue} {values : List Value}
    (hvalues : element.elements? inner payload = some values) :
    ∀ value ∈ values, value.Decoded catalog element := by
  have hsingle : ∀ payload, (element.interpret inner payload).map (fun value => [value]) =
      some values → ∀ value ∈ values, value.Decoded catalog element := by
    intro payload hone value hvalue
    obtain ⟨held, hheld, rfl⟩ := Option.map_eq_some_iff.mp hone
    rw [List.mem_singleton.mp hvalue]
    exact decoded_of_interpret hinner hheld
  cases payload with
  | varint word => exact hsingle (.varint word) hvalues
  | fixed32 word => exact hsingle (.fixed32 word) hvalues
  | fixed64 word => exact hsingle (.fixed64 word) hvalues
  | lengthDelimited payload =>
      rw [ValueType.elements?] at hvalues
      split at hvalues
      next => exact hsingle (.lengthDelimited payload) hvalues
      next =>
        obtain ⟨payloads, _, hrun⟩ := Option.bind_eq_some_iff.mp hvalues
        exact forall_of_mapM (fun _ _ _ hheld => decoded_of_interpret hinner hheld) hrun

/-- The key of a map entry is of the type of the keys, also where it is missing. -/
theorem type_of_mapEntry {body : String → Bytes → Option Message} {key : ScalarType}
    {type : ValueType} {default : Value} {payload : UnknownValue} {entry : Scalar × Value}
    (hentry : mapEntryOf body key type default payload = some entry) : entry.1.type = key := by
  cases payload with
  | varint | fixed32 | fixed64 => cases hentry
  | lengthDelimited payload =>
      simp only [mapEntryOf, Option.bind_eq_bind, Option.bind_eq_some_iff, Option.pure_def,
        Option.some.injEq] at hentry
      obtain ⟨records, _, keys, hkeys, values, _, rfl⟩ := hentry
      have htypes := forall_of_mapM
        (fun _ _ _ hscalar => ScalarType.type_of_interpret hscalar) hkeys
      cases hlast : keys.getLast? with
      | none => cases key <;> rfl
      | some scalar => exact htypes scalar (List.mem_of_getLast? hlast)

theorem decoded_of_mapEntry (hinner : DecodesMessages catalog inner) {key : ScalarType}
    {type : ValueType} {default : Value} (hdefault : default.Decoded catalog type)
    {payload : UnknownValue} {entry : Scalar × Value}
    (hentry : mapEntryOf inner key type default payload = some entry) :
    entry.1.type = key ∧ entry.2.Decoded catalog type := by
  refine ⟨type_of_mapEntry hentry, ?_⟩
  cases payload with
  | varint | fixed32 | fixed64 => cases hentry
  | lengthDelimited payload =>
      simp only [mapEntryOf, Option.bind_eq_bind, Option.bind_eq_some_iff, Option.pure_def,
        Option.some.injEq] at hentry
      obtain ⟨records, _, keys, _, values, hvalues, rfl⟩ := hentry
      have hheld := forall_of_mapM (fun _ _ _ hheld => decoded_of_interpret hinner hheld) hvalues
      cases hlast : values.getLast? with
      | none => exact hdefault
      | some value => exact hheld value (List.mem_of_getLast? hlast)

/-- What an entry makes of records is decoded. -/
theorem decoded_of_assemble (hinner : DecodesMessages catalog inner) {entry : Entry}
    (hdefaulted : entry.defaulted catalog = true) (hkeyed : entry.keyed = true)
    {records : List UnknownField} {content : Content}
    (hcontent : entry.assemble? catalog inner records = some content) :
    content.Decoded catalog entry := by
  cases entry with
  | singular name number type optional nonNull =>
      obtain ⟨values, hvalues, hcontent⟩ := Option.bind_eq_some_iff.mp hcontent
      have hheld := forall_of_mapM (fun _ _ _ hheld => decoded_of_interpret hinner hheld) hvalues
      cases hlast : values.getLast? with
      | some value =>
          rw [hlast] at hcontent
          cases hcontent
          exact Content.decoded_singular (hheld value (List.mem_of_getLast? hlast))
      | none =>
          rw [hlast] at hcontent
          cases nonNull with
          | true => cases hcontent
          | false =>
              cases hcontent
              exact Content.decoded_singular (decoded_default hdefaulted)
  | repeated name number element packed =>
      obtain ⟨runs, hruns, hcontent⟩ := Option.bind_eq_some_iff.mp hcontent
      cases hcontent
      have hheld := forall_of_mapM (fun _ _ _ hrun => decoded_of_elements hinner hrun) hruns
      refine Content.decoded_repeated fun value hvalue => ?_
      obtain ⟨run, hrun, hvalue⟩ := List.mem_flatten.mp hvalue
      exact hheld run hrun value hvalue
  | map name number key type order =>
      obtain ⟨entries, hentries, hcontent⟩ := Option.bind_eq_some_iff.mp hcontent
      cases hcontent
      have hheld := forall_of_mapM
        (fun _ _ _ hentry => decoded_of_mapEntry hinner (decoded_default hdefaulted) hentry) hentries
      exact Content.decoded_map (fun entry hentry => (hheld entry (mem_sortEntries hentry)).1)
        (sortEntries_byKey hkeyed fun entry hentry => (hheld entry hentry).1)
        fun entry hentry => (hheld entry (mem_sortEntries hentry)).2
  | oneof name schema required =>
      obtain ⟨choices, hchoices, hcontent⟩ := Option.bind_eq_some_iff.mp hcontent
      cases hlast : choices.getLast? with
      | none =>
          rw [hlast] at hcontent
          cases required with
          | true => cases hcontent
          | false =>
              cases hcontent
              exact ⟨.unset name schema, rfl⟩
      | some choice =>
          rw [hlast] at hcontent
          cases hcontent
          have hheld : ∀ choice ∈ choices, ∃ member, schema.members[choice.1]? = some member ∧
              choice.2.Decoded catalog member.type := by
            refine forall_of_mapM (fun record _ choice hchoice => ?_) hchoices
            simp only [OneofSchema.choice?, Option.bind_eq_bind, Option.bind_eq_some_iff,
              Option.pure_def, Option.some.injEq] at hchoice
            obtain ⟨place, _, member, hmember, value, hvalue, rfl⟩ := hchoice
            exact ⟨member, hmember, decoded_of_interpret hinner hvalue⟩
          obtain ⟨member, hmember, hvalue⟩ := hheld choice (List.mem_of_getLast? hlast)
          exact Content.decoded_chosen hmember hvalue

end Payloads

/-! ## Messages -/

section Messages

variable {catalog : Catalog}

/-- The records left over are apart from the entries. -/
theorem unknownApart_leftover {schema : MessageSchema} {records : List UnknownField}
    (hnumbers : ∀ record ∈ records, Tag.inRange record.number = true) {contents : List Content}
    {cache : SizeCache} :
    (Message.mk contents ⟨if schema.keepsUnknown then schema.leftover records else []⟩
      cache).UnknownApart schema := by
  cases hkeeps : schema.keepsUnknown with
  | false => exact unknownApart_empty
  | true =>
      refine ⟨fun record hrecord => hnumbers record (List.mem_of_mem_filter hrecord), ?_, ?_⟩
      · intro record hrecord entry hentry
        have hleft := (List.mem_filter.mp hrecord).2
        simp only [Bool.not_eq_true', List.any_eq_false] at hleft
        exact Bool.eq_false_iff.mpr (hleft entry hentry)
      · intro hnot
        rw [hkeeps] at hnot
        cases hnot

/-- The messages that byte strings are made into are decoded. -/
theorem decoded_of_message (hdefaulted : catalog.Defaulted) (hkeyed : catalog.Keyed) {levels : Nat}
    {name : String} {bytes : Bytes} {message : Message}
    (hmessage : catalog.message? levels name bytes = some message) :
    message.Decoded catalog (catalog.schema name) := by
  -- One level of nesting, on which the induction over the levels rests.
  have hbody : ∀ levels, DecodesMessages catalog (catalog.nested? levels) →
      ∀ name bytes message, catalog.message? levels name bytes = some message →
        message.Decoded catalog (catalog.schema name) := by
    intro levels hinner name bytes message hmessage
    rw [Catalog.message_eq] at hmessage
    obtain ⟨records, hsplit, hmessage⟩ := Option.bind_eq_some_iff.mp hmessage
    obtain ⟨contents, hcontents, hmade⟩ := Option.bind_eq_some_iff.mp hmessage
    cases hmade
    obtain ⟨hlength, hpairs⟩ := zip_of_mapM hcontents
    refine Message.decoded_mk hlength (fun pair hpair => ?_)
      (unknownApart_leftover (UnknownField.inRange_of_split hsplit))
    have hentry := (List.of_mem_zip hpair).1
    exact decoded_of_assemble hinner (hdefaulted.schema name pair.1 hentry)
      (hkeyed.schema name pair.1 hentry) (hpairs pair hpair)
  induction levels generalizing name bytes message with
  | zero => exact hbody 0 (fun _ _ _ hnone => nomatch hnone) name bytes message hmessage
  | succ levels ih =>
      exact hbody (levels + 1) (fun _ _ _ hnested => ih hnested) name bytes message hmessage

/-- What decoding gives is decoded. -/
theorem Catalog.decoded_of_decode (hnumbered : catalog.Numbered) (hdefaulted : catalog.Defaulted)
    (hkeyed : catalog.Keyed) {name : String} {bytes : Bytes} {config : ReaderConfig}
    {message : Message} (hdecode : catalog.decode name bytes config = .ok message) :
    message.Decoded catalog (catalog.schema name) :=
  decoded_of_message hdefaulted hkeyed ((decode_eq_ok_iff hnumbered).mp hdecode)

end Messages

end ProtoWire
