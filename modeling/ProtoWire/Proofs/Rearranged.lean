import ProtoWire.Proofs.Decoded

/-! # Rearranged maps and positive zeros

A map without an order may hold its entries in any order. Two messages hold the same entries if they
are the same once all maps are sorted, and then they are received as the same message. Zeros that
are made positive leave no trace in what is written.
-/

namespace ProtoWire

variable {catalog : Catalog}

/-! ## Rebuilding twice -/

/-- Map entries in the order of their keys, and nothing else changed. -/
def Rewriting.sorted : Rewriting where
  singular value := value
  enumeration _ value := value
  held form := form
  entries := sortEntries
  cache cache := cache

/-- A message with the entries of all maps in the order of their keys. -/
def Message.sorted (catalog : Catalog) (schema : MessageSchema) (message : Message) : Message :=
  message.rebuild catalog .sorted schema

/-- Rebuilding with one rewriting and then with another is rebuilding with a third. -/
structure Rewriting.Composes (first second both : Rewriting) : Prop where
  singular_rebuild : ∀ catalog (type : ValueType) value,
    (first.singular value).rebuild catalog second type =
      first.singular (value.rebuild catalog second type)
  singular_eq : ∀ value, second.singular (first.singular value) = both.singular value
  enumeration_eq : ∀ schema value,
    second.enumeration schema (first.enumeration schema value) = both.enumeration schema value
  held_eq : ∀ form, second.held (first.held form) = both.held form
  entries_map : ∀ (change : Value → Value) entries,
    first.entries (entries.map fun entry => (entry.1, change entry.2)) =
      (first.entries entries).map fun entry => (entry.1, change entry.2)
  entries_eq : ∀ (key : ScalarType) entries, key.isMapKey = true →
    (∀ entry ∈ entries, entry.1.type = key) →
      second.entries (first.entries entries) = both.entries entries
  cache_eq : ∀ cache, second.cache (first.cache cache) = both.cache cache

theorem inherits_composed (hkeyed : catalog.Keyed) {holds : MessageSchema → Message → Prop}
    {first second both : Rewriting} (hcomposes : first.Composes second both) :
    Inherits catalog holds
      (fun type value => (value.rebuild catalog first type).rebuild catalog second type =
        value.rebuild catalog both type)
      (fun schema message => (∀ entry ∈ schema.entries, entry.keyed = true) →
        (message.rebuild catalog first schema).rebuild catalog second schema =
          message.rebuild catalog both schema)
      (fun entries contents => (∀ entry ∈ entries, entry.keyed = true) →
        rebuildContents catalog second entries (rebuildContents catalog first entries contents) =
          rebuildContents catalog both entries contents)
      (fun entry content => entry.keyed = true →
        (content.rebuild catalog first entry).rebuild catalog second entry =
          content.rebuild catalog both entry) where
  scalar type scalar _ := rfl
  enumeration schema value := congrArg Value.enumeration (hcomposes.enumeration_eq schema value)
  message name message hmessage := congrArg Value.message (hmessage (hkeyed.schema name))
  absent inner := rfl
  present inner value hvalue := congrArg Value.present hvalue
  reference converter wire held value hvalue := by
    simp only [Value.rebuild, hcomposes.held_eq, hvalue]
  body schema contents unknown cache _ _ hcontents hschema := by
    simp only [Message.rebuild, hcontents hschema, hcomposes.cache_eq]
  nil _ := rfl
  cons entry content entries contents hcontent hcontents hentries := by
    have hrest := hcontents fun other hother => hentries other (List.mem_cons_of_mem entry hother)
    simp only [rebuildContents, hcontent (hentries entry List.mem_cons_self), hrest]
  singular name number type optional nonNull value _ hvalue _ := by
    cases nonNull with
    | true => exact congrArg Content.singular hvalue
    | false =>
        refine congrArg Content.singular ?_
        rw [hcomposes.singular_rebuild, hvalue, hcomposes.singular_eq]
  repeated name number element packed values hvalues _ := by
    simp only [Content.rebuild, rebuildValues_eq, List.map_map]
    exact congrArg Content.repeated (List.map_congr_left hvalues)
  mapping name number key type order entries hkeys _ hvalues hkeyed := by
    have hrebuilt : (entries.map fun entry => (entry.1, entry.2.rebuild catalog first type)).map
        (fun entry => (entry.1, entry.2.rebuild catalog second type)) =
          entries.map fun entry => (entry.1, entry.2.rebuild catalog both type) := by
      rw [List.map_map]
      refine List.map_congr_left fun entry hentry => ?_
      exact congrArg (Prod.mk entry.1) (hvalues entry hentry)
    simp only [Content.rebuild, rebuildEntries_eq]
    rw [← hcomposes.entries_map, hrebuilt, hcomposes.entries_eq key _ hkeyed]
    intro entry hentry
    obtain ⟨held, hheld, rfl⟩ := List.mem_map.mp hentry
    exact hkeys held hheld
  unset name schema _ := rfl
  chosen name schema required place member value hmember hvalue _ := by
    simp only [Content.rebuild, hmember, hvalue]

theorem Message.Conforms.rebuild_rebuild (hkeyed : catalog.Keyed)
    {holds : MessageSchema → Message → Prop} {name : String} {message : Message}
    (hmessage : message.Conforms catalog holds (catalog.schema name))
    {first second both : Rewriting} (hcomposes : first.Composes second both) :
    (message.rebuild catalog first (catalog.schema name)).rebuild catalog second
        (catalog.schema name) =
      message.rebuild catalog both (catalog.schema name) :=
  (inherits_composed hkeyed hcomposes).of_message hmessage (hkeyed.schema name)

theorem insertEntry_map (change : Value → Value) (key : Scalar) (value : Value)
    (entries : List (Scalar × Value)) :
    insertEntry key (change value) (entries.map fun entry => (entry.1, change entry.2)) =
      (insertEntry key value entries).map fun entry => (entry.1, change entry.2) := by
  induction entries with
  | nil => rfl
  | cons entry entries ih =>
      rw [List.map_cons, insertEntry, insertEntry]
      split
      · rfl
      · split
        · rfl
        · rw [ih, List.map_cons]

theorem sortEntries_map (change : Value → Value) (entries : List (Scalar × Value)) :
    sortEntries (entries.map fun entry => (entry.1, change entry.2)) =
      (sortEntries entries).map fun entry => (entry.1, change entry.2) := by
  have hfold : ∀ held rest : List (Scalar × Value),
      (rest.map fun entry => (entry.1, change entry.2)).foldl
          (fun held entry => insertEntry entry.1 entry.2 held)
          (held.map fun entry => (entry.1, change entry.2)) =
        (rest.foldl (fun held entry => insertEntry entry.1 entry.2 held) held).map
          fun entry => (entry.1, change entry.2) := by
    intro held rest
    induction rest generalizing held with
    | nil => rfl
    | cons entry rest ih =>
        rw [List.map_cons, List.foldl_cons, List.foldl_cons, insertEntry_map]
        exact ih _
  exact hfold [] entries

theorem sortEntries_sortEntries {key : ScalarType} (hkey : key.isMapKey = true)
    {entries : List (Scalar × Value)} (hkeys : ∀ entry ∈ entries, entry.1.type = key) :
    sortEntries (sortEntries entries) = sortEntries entries :=
  sortEntries_of_byKey (sortEntries_byKey hkey hkeys)

theorem Value.positive_rebuild (rewriting : Rewriting) (type : ValueType) (value : Value) :
    value.positive.rebuild catalog rewriting type = (value.rebuild catalog rewriting type).positive := by
  induction type generalizing value with
  | scalar type | enumeration schema | message name | option inner => cases value <;> rfl
  | converted converter wire ih =>
      cases value with
      | reference held value =>
          exact congrArg (Value.reference (rewriting.held held)) (ih value)
      | _ => rfl

theorem Rewriting.sorted_received : Rewriting.sorted.Composes .received .received where
  singular_rebuild _ _ _ := rfl
  singular_eq _ := rfl
  enumeration_eq _ _ := rfl
  held_eq _ := rfl
  entries_map := sortEntries_map
  entries_eq _ _ hkey hkeys := sortEntries_sortEntries hkey hkeys
  cache_eq _ := rfl

/-- Positive zeros in the order of the keys. -/
def Rewriting.sortedPositive : Rewriting := { Rewriting.sorted with singular := Value.positive }

theorem Rewriting.sorted_positiveZeros :
    Rewriting.sorted.Composes .positiveZeros .sortedPositive where
  singular_rebuild _ _ _ := rfl
  singular_eq _ := rfl
  enumeration_eq _ _ := rfl
  held_eq _ := rfl
  entries_map := sortEntries_map
  entries_eq _ _ _ _ := rfl
  cache_eq _ := rfl

theorem Rewriting.positiveZeros_sorted :
    Rewriting.positiveZeros.Composes .sorted .sortedPositive where
  singular_rebuild _ := Value.positive_rebuild .sorted
  singular_eq _ := rfl
  enumeration_eq _ _ := rfl
  held_eq _ := rfl
  entries_map _ _ := rfl
  entries_eq _ _ _ _ := rfl
  cache_eq _ := rfl

section Sorted

variable {holds holds' : MessageSchema → Message → Prop} {name : String} {message other : Message}

/-- Messages that hold the same entries are received as the same message. -/
theorem Message.Conforms.asReceived_eq (hkeyed : catalog.Keyed)
    (hmessage : message.Conforms catalog holds (catalog.schema name))
    (hother : other.Conforms catalog holds' (catalog.schema name))
    (hsorted : message.sorted catalog (catalog.schema name) =
      other.sorted catalog (catalog.schema name)) :
    message.asReceived catalog (catalog.schema name) =
      other.asReceived catalog (catalog.schema name) := by
  rw [Message.asReceived, Message.asReceived,
    ← hmessage.rebuild_rebuild hkeyed Rewriting.sorted_received,
    ← hother.rebuild_rebuild hkeyed Rewriting.sorted_received]
  exact congrArg (Message.rebuild catalog .received (catalog.schema name)) hsorted

/-- A message that holds the entries of a decoded one, in any order, is received as that one with
positive zeros. -/
theorem Message.Decoded.asReceived_arranged (hkeyed : catalog.Keyed)
    (hmessage : message.Decoded catalog (catalog.schema name))
    (hother : other.Conforms catalog holds' (catalog.schema name))
    (hsorted : other.sorted catalog (catalog.schema name) =
      message.sorted catalog (catalog.schema name)) :
    other.asReceived catalog (catalog.schema name) =
      message.positiveZeros catalog (catalog.schema name) :=
  (hother.asReceived_eq hkeyed hmessage.conforms hsorted).trans hmessage.received_eq

/-- Messages that hold the same entries do so with positive zeros as well. -/
theorem Message.Conforms.sorted_positiveZeros_eq (hkeyed : catalog.Keyed)
    (hmessage : message.Conforms catalog holds (catalog.schema name))
    (hother : other.Conforms catalog holds' (catalog.schema name))
    (hsorted : message.sorted catalog (catalog.schema name) =
      other.sorted catalog (catalog.schema name)) :
    (message.positiveZeros catalog (catalog.schema name)).sorted catalog (catalog.schema name) =
      (other.positiveZeros catalog (catalog.schema name)).sorted catalog (catalog.schema name) := by
  rw [Message.sorted, Message.sorted, Message.positiveZeros, Message.positiveZeros,
    hmessage.rebuild_rebuild hkeyed Rewriting.positiveZeros_sorted,
    hother.rebuild_rebuild hkeyed Rewriting.positiveZeros_sorted,
    ← hmessage.rebuild_rebuild hkeyed Rewriting.sorted_positiveZeros,
    ← hother.rebuild_rebuild hkeyed Rewriting.sorted_positiveZeros]
  exact congrArg (Message.rebuild catalog .positiveZeros (catalog.schema name)) hsorted

end Sorted

/-! ## Positive zeros -/

theorem Scalar.isDefault_positive (scalar : Scalar) : scalar.positive.isDefault = scalar.isDefault := by
  cases hdefault : scalar.isDefault with
  | true =>
      rw [positive_of_isDefault hdefault]
      cases scalar <;> rfl
  | false => rw [positive_of_not_isDefault hdefault, hdefault]

theorem Scalar.type_positive (scalar : Scalar) : scalar.positive.type = scalar.type := by
  cases scalar <;> rfl

theorem Value.isOmitted_positive (type : ValueType) (value : Value) :
    value.positive.isOmitted catalog type = value.isOmitted catalog type := by
  induction type generalizing value with
  | scalar type =>
      cases value with
      | scalar scalar => exact scalar.isDefault_positive
      | _ => rfl
  | enumeration schema | message name | option inner => cases value <;> rfl
  | converted converter wire ih =>
      cases value with
      | reference held value => exact ih value
      | _ => rfl

theorem Value.Conforms.positive {holds : MessageSchema → Message → Prop} {type : ValueType}
    {value : Value} (hvalue : value.Conforms catalog holds type) :
    value.positive.Conforms catalog holds type := by
  induction type generalizing value with
  | scalar type =>
      cases hvalue with
      | scalar _ scalar htype => exact .scalar type scalar.positive (scalar.type_positive.trans htype)
  | enumeration schema | message name | option inner => cases hvalue <;> constructor <;> assumption
  | converted converter wire ih =>
      cases hvalue with
      | reference _ _ held value hvalue => exact .reference converter wire held _ (ih hvalue)

/-- What is written of a message does not tell negative zeros from positive ones. -/
theorem inherits_written (holds : MessageSchema → Message → Prop) :
    Inherits catalog holds
      (fun type value =>
        (value.rebuild catalog .positiveZeros type).payload catalog type = value.payload catalog type ∧
          (value.rebuild catalog .positiveZeros type).isOmitted catalog type =
            value.isOmitted catalog type)
      (fun schema message =>
        (message.positiveZeros catalog schema).records catalog schema =
          message.records catalog schema)
      (fun entries contents => ∀ dialect,
        contentsRecords catalog dialect entries
            (rebuildContents catalog .positiveZeros entries contents) =
          contentsRecords catalog dialect entries contents)
      (fun entry content => ∀ dialect,
        (content.rebuild catalog .positiveZeros entry).records catalog dialect entry =
          content.records catalog dialect entry) where
  scalar type scalar _ := ⟨rfl, rfl⟩
  enumeration schema value := ⟨rfl, rfl⟩
  message name message hmessage :=
    ⟨congrArg (fun records => UnknownValue.lengthDelimited (UnknownField.encodeAll records)) hmessage,
      congrArg List.isEmpty hmessage⟩
  absent inner := ⟨rfl, rfl⟩
  present inner value hvalue := ⟨hvalue.1, rfl⟩
  reference converter wire held value hvalue := hvalue
  body schema contents unknown cache _ _ hcontents :=
    congrArg (· ++ unknown.fields) (hcontents schema.dialect)
  nil _ := rfl
  cons entry content entries contents hcontent hcontents dialect := by
    rw [rebuildContents, contentsRecords, contentsRecords, hcontent, hcontents]
  singular name number type optional nonNull value hconforms hvalue dialect := by
    obtain ⟨hpayload, homitted⟩ := hvalue
    cases nonNull with
    | true => simp only [Content.rebuild, if_true, Content.records, Bool.true_or, hpayload]
    | false =>
        have hrebuild : Content.rebuild catalog .positiveZeros
            (.singular name number type optional false) (.singular value) =
              .singular (value.rebuild catalog .positiveZeros type).positive := rfl
        rw [hrebuild, Content.records, Content.records]
        cases hleft : value.isOmitted catalog type with
        | true =>
            rw [Value.isOmitted_positive, homitted, hleft]
            rfl
        | false =>
            rw [positive_of_not_isOmitted .positiveZeros hconforms hleft, homitted, hleft, hpayload]
  repeated name number element packed values hvalues dialect := by
    have hpayloads : valuePayloads catalog element (rebuildValues catalog .positiveZeros element values) =
        valuePayloads catalog element values := by
      rw [valuePayloads_eq, valuePayloads_eq, rebuildValues_eq, List.map_map]
      exact List.map_congr_left fun value hvalue => (hvalues value hvalue).1
    have hempty : (rebuildValues catalog .positiveZeros element values).isEmpty = values.isEmpty := by
      cases values <;> rfl
    rw [Content.rebuild, Content.records, Content.records, hpayloads, hempty]
  mapping name number key type order entries _ _ hvalues dialect := by
    have hpayloads : entryPayloads catalog type (rebuildEntries catalog .positiveZeros type entries) =
        entryPayloads catalog type entries := by
      rw [entryPayloads_eq, entryPayloads_eq, rebuildEntries_eq, List.map_map]
      refine List.map_congr_left fun entry hentry => ?_
      exact congrArg (entryPayload entry.1.payload) (hvalues entry hentry).1
    exact congrArg (List.map fun payload => (⟨number, payload⟩ : UnknownField)) hpayloads
  unset name schema _ := rfl
  chosen name schema required place member value hmember hvalue dialect := by
    simp only [Content.rebuild, hmember, Content.records, hvalue.1]

theorem Message.Conforms.records_positiveZeros {holds : MessageSchema → Message → Prop}
    {schema : MessageSchema} {message : Message} (hmessage : message.Conforms catalog holds schema) :
    (message.positiveZeros catalog schema).records catalog schema = message.records catalog schema :=
  (inherits_written holds).of_message hmessage

/-- A property of messages that does not depend on their contents is kept with positive zeros. -/
theorem inherits_positiveZeros {holds : MessageSchema → Message → Prop}
    (hholds : ∀ schema contents contents' unknown cache,
      holds schema (.mk contents unknown cache) → holds schema (.mk contents' unknown cache)) :
    Inherits catalog holds
      (fun type value => (value.rebuild catalog .positiveZeros type).Conforms catalog holds type)
      (fun schema message => (message.positiveZeros catalog schema).Conforms catalog holds schema)
      (fun entries contents => ContentsConform catalog holds entries
        (rebuildContents catalog .positiveZeros entries contents))
      (fun entry content =>
        (content.rebuild catalog .positiveZeros entry).Conforms catalog holds entry) where
  scalar type scalar htype := .scalar type scalar htype
  enumeration schema value := .enumeration schema value
  message name message hmessage := .message name _ hmessage
  absent inner := .absent inner
  present inner value hvalue := .present inner _ hvalue
  reference converter wire held value hvalue := .reference converter wire held _ hvalue
  body schema contents unknown cache hhere _ hcontents :=
    .mk schema _ unknown cache (hholds _ _ _ _ _ hhere) hcontents
  nil := .nil
  cons entry content entries contents hcontent hcontents :=
    .cons entry _ entries _ hcontent hcontents
  singular name number type optional nonNull value _ hvalue := by
    cases nonNull with
    | true => exact .singular name number type optional true _ hvalue
    | false => exact .singular name number type optional false _ hvalue.positive
  repeated name number element packed values hvalues := by
    rw [Content.rebuild, rebuildValues_eq]
    exact .repeated_map hvalues
  mapping name number key type order entries hkeys horder hvalues := by
    have hrebuild : Content.rebuild catalog .positiveZeros (.map name number key type order)
        (.mapping entries) = .mapping (entries.map fun entry =>
          (entry.1, entry.2.rebuild catalog .positiveZeros type)) :=
      congrArg Content.mapping (rebuildEntries_eq entries)
    rw [hrebuild]
    exact .mapping_map hkeys horder hvalues
  unset name schema := .unset name schema
  chosen name schema required place member value hmember hvalue := by
    simp only [Content.rebuild, hmember]
    exact .chosen name schema required place member _ hmember hvalue

theorem Message.Conforms.positiveZeros {schema : MessageSchema} {message : Message}
    (hmessage : message.Conforms catalog Message.Fresh schema) :
    (message.positiveZeros catalog schema).Conforms catalog Message.Fresh schema := by
  refine (inherits_positiveZeros fun schema contents contents' unknown cache hfresh => ?_).of_message
    hmessage
  obtain ⟨⟨hnumbered, haccepts, hempty⟩, hcache⟩ := hfresh
  exact ⟨⟨hnumbered, haccepts, hempty⟩, hcache⟩

end ProtoWire
