import ProtoWire.Proofs.RoundTrip

/-! # Levels that decoding needs

What was written is decoded only where messages may nest as deep as they were written, as every
record with a message in it has to be read. With the round trip, decoding succeeds exactly if there
are levels enough.
-/

namespace ProtoWire

variable {catalog : Catalog} {dialect : Dialect}

/-- The payload of a value is read only where there are levels for the messages nested in it. -/
structure Value.Measured (catalog : Catalog) (type : ValueType) (value : Value) : Prop where
  wireType_eq : (value.payload catalog type).wireType = type.wireType
  depth_le : ∀ levels, (value.payload catalog type).size < addressSpace →
    (type.interpret (catalog.nested? levels) (value.payload catalog type)).isSome = true →
      value.depth catalog type ≤ levels

/-- The body of a message is read only where there are levels for the messages nested in it. -/
def Message.Measured (catalog : Catalog) (schema : MessageSchema) (message : Message) : Prop :=
  ∀ levels, (message.body catalog schema).length < addressSpace →
    ((Bytes.split? UnknownField.cut? (message.body catalog schema)).bind
      (schema.assemble? catalog (catalog.nested? levels))).isSome = true →
        message.depth catalog schema ≤ levels

/-- The records of a content are read only where there are levels for the messages nested in them.
-/
def Content.Measured (catalog : Catalog) (dialect : Dialect) (entry : Entry) (content : Content) :
    Prop :=
  ∀ levels, (∀ record ∈ content.records catalog dialect entry, record.value.size < addressSpace) →
    (entry.assemble? catalog (catalog.nested? levels)
      (content.records catalog dialect entry)).isSome = true →
        content.depth catalog entry ≤ levels

theorem isSome_of_mapM {α β : Type} {read : α → Option β} {list : List α}
    (hlist : (list.mapM read).isSome = true) : ∀ member ∈ list, (read member).isSome = true := by
  obtain ⟨results, hresults⟩ := Option.isSome_iff_exists.mp hlist
  obtain ⟨hlength, hpairs⟩ := zip_of_mapM hresults
  intro member hmember
  obtain ⟨result, hpair⟩ := exists_mem_zip hlength hmember
  exact Option.isSome_iff_exists.mpr ⟨result, hpairs _ hpair⟩

theorem isSome_of_bind {α β : Type} {first : Option α} {next : α → Option β}
    (hboth : (first.bind next).isSome = true) : first.isSome = true := by
  cases first with
  | none => cases hboth
  | some value => rfl

/-! ## Contents -/

theorem valuesDepth_le {type : ValueType} {values : List Value} {levels : Nat}
    (hvalues : ∀ value ∈ values, value.depth catalog type ≤ levels) :
    valuesDepth catalog type values ≤ levels := by
  induction values with
  | nil => exact Nat.zero_le levels
  | cons value values ih =>
      exact max_le (hvalues value List.mem_cons_self)
        (ih fun other hother => hvalues other (List.mem_cons_of_mem value hother))

theorem entriesDepth_le {type : ValueType} {entries : List (Scalar × Value)} {levels : Nat}
    (hentries : ∀ entry ∈ entries, entry.2.depth catalog type ≤ levels) :
    entriesDepth catalog type entries ≤ levels := by
  induction entries with
  | nil => exact Nat.zero_le levels
  | cons entry entries ih =>
      exact max_le (hentries entry List.mem_cons_self)
        (ih fun other hother => hentries other (List.mem_cons_of_mem entry hother))

theorem contentsDepth_le {entries : List Entry} {contents : List Content} {levels : Nat}
    (hpairs : ∀ pair ∈ entries.zip contents, pair.2.depth catalog pair.1 ≤ levels) :
    contentsDepth catalog entries contents ≤ levels := by
  induction entries generalizing contents with
  | nil => cases contents <;> exact Nat.zero_le levels
  | cons entry entries ih =>
      cases contents with
      | nil => exact Nat.zero_le levels
      | cons content contents =>
          rw [List.zip_cons_cons] at hpairs
          exact max_le (hpairs (entry, content) List.mem_cons_self)
            (ih fun pair hpair => hpairs pair (List.mem_cons_of_mem _ hpair))

theorem measured_singular {name : String} {number : UInt32} {type : ValueType}
    {optional nonNull : Bool} {value : Value}
    (hoptions : (Entry.singular name number type optional nonNull).optionsSingular = true)
    (hvalue : type.isPlain = true ∨ value.isOmitted catalog type = false →
      value.Measured catalog type) :
    Content.Measured catalog dialect (.singular name number type optional nonNull)
      (.singular value) := by
  intro levels hsizes hread
  rw [Content.depth]
  by_cases hwritten : (nonNull || !value.isOmitted catalog type) = true
  · have hrecords : Content.records catalog dialect (.singular name number type optional nonNull)
        (.singular value) = [⟨number, value.payload catalog type⟩] := if_pos hwritten
    rw [hrecords] at hsizes hread
    rw [if_pos hwritten]
    have hpayload := isSome_of_mapM (isSome_of_bind hread) _ (List.mem_singleton_self _)
    exact (hvalue (Entry.isPlain_or_of_written hoptions hwritten)).depth_le levels
      (hsizes _ (List.mem_singleton_self _)) hpayload
  · rw [if_neg hwritten]
    exact Nat.zero_le levels

theorem measured_repeated {name : String} {number : UInt32} {element : ValueType}
    {packed : Option Bool} {values : List Value}
    (hvalues : ∀ value ∈ values, value.Measured catalog element) :
    Content.Measured catalog dialect (.repeated name number element packed) (.repeated values) := by
  intro levels hsizes hread
  refine valuesDepth_le fun value hmem => ?_
  by_cases hpacks : dialect.packs element.fieldType packed = true
  · have hpackable : element.fieldType.isPackable = true := (Bool.and_eq_true_iff.mp hpacks).1
    rw [Value.depth_of_isPackable hpackable]
    exact Nat.zero_le levels
  · have hne : ¬ values.isEmpty = true := by
      rw [List.isEmpty_iff]
      exact List.ne_nil_of_mem hmem
    rw [Content.records_elements hne hpacks] at hsizes hread
    have hrecord : (⟨number, value.payload catalog element⟩ : UnknownField) ∈
        values.map fun value => ⟨number, value.payload catalog element⟩ :=
      List.mem_map_of_mem hmem
    have helements := isSome_of_mapM (isSome_of_bind hread) _ hrecord
    rw [ValueType.elements_single (hvalues value hmem).wireType_eq, Option.isSome_map] at helements
    exact (hvalues value hmem).depth_le levels (hsizes _ hrecord) helements

theorem measured_map {name : String} {number : UInt32} {key : ScalarType} {type : ValueType}
    {order : MapOrder} {entries : List (Scalar × Value)}
    (hkeys : ∀ entry ∈ entries, entry.1.type = key)
    (hvalues : ∀ entry ∈ entries, entry.2.Measured catalog type) :
    Content.Measured catalog dialect (.map name number key type order) (.mapping entries) := by
  intro levels hsizes hread
  refine entriesDepth_le fun entry hmem => ?_
  rw [Content.records_mapping] at hsizes hread
  have hrecord := List.mem_map_of_mem (f := fun entry : Scalar × Value => (⟨number,
    entryPayload entry.1.payload (entry.2.payload catalog type)⟩ : UnknownField)) hmem
  have hentry := isSome_of_mapM (isSome_of_bind hread) _ hrecord
  have hsize := hsizes _ hrecord
  rw [← hkeys entry hmem, mapEntryOf_entryPayload (hvalues entry hmem).wireType_eq hsize,
    Option.isSome_map] at hentry
  exact (hvalues entry hmem).depth_le levels (sendable_of_entryPayload hsize ⟨2, _⟩ (by simp)).2
    hentry

theorem measured_chosen {name : String} {schema : OneofSchema} {required : Bool} {place : Nat}
    {member : Member} {value : Value} (hmember : schema.members[place]? = some member)
    (hentry : (Entry.oneof name schema required).Restorable catalog)
    (hvalue : value.Measured catalog member.type) :
    Content.Measured catalog dialect (.oneof name schema required) (.chosen place value) := by
  intro levels hsizes hread
  have htag : UnknownField.tag ⟨member.number, value.payload catalog member.type⟩ = member.tag :=
    congrArg (Tag.make member.number) hvalue.wireType_eq
  have hfound := OneofSchema.memberFor_tag (fun member hmember => hentry.declarable.1 member.number
    (List.mem_map_of_mem hmember)) hentry.nodup hmember
  rw [Content.records_chosen hmember] at hsizes hread
  have hchoice := isSome_of_mapM (isSome_of_bind hread) _ (List.mem_singleton_self _)
  simp only [OneofSchema.choice?, htag, hfound, hmember, Option.bind_eq_bind,
    Option.bind_some] at hchoice
  rw [Content.depth, hmember]
  exact hvalue.depth_le levels (hsizes _ (List.mem_singleton_self _)) (isSome_of_bind hchoice)

/-! ## Messages -/

theorem measured_body {schema : MessageSchema} {message : Message}
    (hrestored : message.Restored catalog schema)
    (hcontents : ∀ pair ∈ schema.entries.zip message.contents,
      pair.2.Measured catalog schema.dialect pair.1) : message.Measured catalog schema := by
  intro levels hlength hread
  rw [hrestored.split_eq hlength, Option.bind_some] at hread
  rw [Message.Restored.depth_eq]
  refine contentsDepth_le fun pair hpair => ?_
  have hentry := isSome_of_mapM (isSome_of_bind hread) pair.1 (List.of_mem_zip hpair).1
  rw [hrestored.own_eq hpair] at hentry
  exact hcontents pair hpair levels (hrestored.size_lt hlength hpair) hentry

theorem inherits_measured (hrestorable : ∀ name, (catalog.schema name).Restorable catalog) :
    Inherits catalog (fun schema message => message.UnknownApart schema)
      (fun type value => type.isSingular = true →
        type.isPlain = true ∨ value.isOmitted catalog type = false → value.Measured catalog type)
      (fun schema message => schema.Restorable catalog → message.Measured catalog schema)
      (fun entries contents => (∀ entry ∈ entries, entry.Restorable catalog) → ∀ dialect,
        ∀ pair ∈ entries.zip contents, pair.2.Measured catalog dialect pair.1)
      (fun entry content => entry.Restorable catalog → ∀ dialect,
        content.Measured catalog dialect entry) where
  scalar type scalar htype _ _ := by
    subst htype
    exact ⟨scalar.wireType_payload, fun levels _ _ => Nat.zero_le levels⟩
  enumeration schema value _ _ := ⟨rfl, fun levels _ _ => Nat.zero_le levels⟩
  message name message hmessage _ _ := by
    refine ⟨rfl, fun levels hsize hread => ?_⟩
    have hlength := UnknownValue.length_lt_of_size hsize
    cases levels with
    | zero => cases hread
    | succ levels =>
        have hbody : (catalog.message? levels name (message.body catalog (catalog.schema name))).isSome =
            true := by
          rw [← Option.isSome_map]
          exact hread
        rw [Catalog.message_eq] at hbody
        exact Nat.succ_le_succ (hmessage (hrestorable name) levels hlength hbody)
  absent inner _ hpresent := by
    rcases hpresent with hplain | hwritten
    · cases hplain
    · cases hwritten
  present inner value hvalue hsingular _ := by
    have hplain : inner.isPlain = true := hsingular
    have hinner := hvalue (ValueType.isSingular_of_isPlain hplain) (.inl hplain)
    refine ⟨hinner.wireType_eq, fun levels hsize hread => ?_⟩
    exact hinner.depth_le levels hsize (by rwa [ValueType.interpret, Option.isSome_map] at hread)
  reference converter wire held value hvalue hsingular hpresent := by
    have hwire := hvalue hsingular hpresent
    refine ⟨hwire.wireType_eq, fun levels hsize hread => ?_⟩
    exact hwire.depth_le levels hsize (by rwa [ValueType.interpret, Option.isSome_map] at hread)
  body schema contents unknown cache hunknown hconform hcontents hschema := by
    have hrestored := (inherits_restored hrestorable).of_message
      (.mk schema contents unknown cache hunknown hconform) hschema
    exact measured_body hrestored (hcontents hschema.entries schema.dialect)
  nil _ _ _ hpair := (List.not_mem_nil hpair).elim
  cons entry content entries contents hcontent hcontents hentries dialect pair hpair := by
    rw [List.zip_cons_cons] at hpair
    rcases List.mem_cons.mp hpair with rfl | hpair
    · exact hcontent (hentries entry List.mem_cons_self) dialect
    · exact hcontents (fun other hother => hentries other (List.mem_cons_of_mem entry hother))
        dialect pair hpair
  singular name number type optional nonNull value hconforms hvalue hentry dialect :=
    measured_singular hentry.declarable.2
      (hvalue (Entry.isSingular_of_optionsSingular hentry.declarable.2))
  repeated name number element packed values hvalues hentry dialect := by
    have hplain : element.isPlain = true := hentry.declarable.2
    exact measured_repeated fun value hvalue =>
      hvalues value hvalue (ValueType.isSingular_of_isPlain hplain) (.inl hplain)
  mapping name number key type order entries hkeys horder hvalues hentry dialect := by
    have hplain : type.isPlain = true := hentry.declarable.2
    exact measured_map hkeys fun entry hmem =>
      hvalues entry hmem (ValueType.isSingular_of_isPlain hplain) (.inl hplain)
  unset name schema _ dialect levels _ _ := Nat.zero_le levels
  chosen name schema required place member value hmember hvalue hentry dialect := by
    have hplain : member.type.isPlain = true :=
      List.all_eq_true.mp hentry.declarable.2 member (List.mem_of_getElem? hmember)
    exact measured_chosen hmember hentry
      (hvalue (ValueType.isSingular_of_isPlain hplain) (.inl hplain))

/-- The body of a message is read exactly where there are levels for the messages nested in it. -/
theorem Message.Conforms.message_iff (hnumbered : catalog.Numbered)
    (hoptions : catalog.OptionsSingular) (hdefaulted : catalog.Defaulted) {name : String}
    {message again : Message}
    (hmessage : message.Conforms catalog (fun schema message => message.UnknownApart schema)
      (catalog.schema name))
    (hlength : (message.body catalog (catalog.schema name)).length < addressSpace) (levels : Nat) :
    catalog.message? levels name (message.body catalog (catalog.schema name)) = some again ↔
      message.depth catalog (catalog.schema name) ≤ levels ∧
        again = message.asReceived catalog (catalog.schema name) := by
  have hrestorable := catalog.restorable hnumbered hoptions hdefaulted
  have hrestored := hmessage.restored hnumbered hoptions hdefaulted
  constructor
  · intro hread
    have hdepth : message.depth catalog (catalog.schema name) ≤ levels := by
      refine (inherits_measured hrestorable).of_message hmessage (hrestorable name) levels hlength ?_
      rw [← Catalog.message_eq, hread]
      rfl
    rw [hrestored.message_eq hdepth hlength] at hread
    exact ⟨hdepth, (Option.some.inj hread).symm⟩
  · rintro ⟨hdepth, rfl⟩
    exact hrestored.message_eq hdepth hlength

end ProtoWire
