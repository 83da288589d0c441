import ProtoWire.Proofs.Lists
import ProtoWire.Proofs.Received
import ProtoWire.Proofs.Sizes
import ProtoWire.Proofs.Slots
import ProtoWire.Proofs.Zigzag

/-! # Restored values, contents and messages

What is written of a value is read as the value it is received as, if the messages nested in it may
be read and all lengths can be counted. The records of a content make up the content again, and
among the records of a message every entry finds its own.
-/

namespace ProtoWire

/-! ## Scalars -/

namespace Varint

/-- The low half of a sign-extended number is the number. -/
theorem toInt32_signExtend (n : Int32) : (signExtend n).toUInt32.toInt32 = n := by
  apply Int32.toBitVec_inj.mp
  have hlow : BitVec.setWidth 32 (BitVec.signExtend 64 n.toBitVec) = n.toBitVec := by
    ext bit hbit
    rw [BitVec.getElem_setWidth, BitVec.getLsbD_signExtend, if_pos hbit,
      decide_eq_true (by omega : bit < 64), Bool.true_and, BitVec.getLsbD_eq_getElem hbit]
  simpa [signExtend] using hlow

theorem signExtend_injective : Function.Injective signExtend := fun number number' hword => by
  rw [← toInt32_signExtend number, hword, toInt32_signExtend]

end Varint

theorem Scalar.interpret_payload (scalar : Scalar) :
    scalar.type.interpret scalar.payload = some scalar := by
  cases scalar with
  | bool value => cases value <;> rfl
  | int32 value =>
      simp only [type, payload, ScalarType.interpret, Varint.toInt32_signExtend]
  | sint32 value =>
      simp only [type, payload, ScalarType.interpret, UInt32.toUInt32_toUInt64,
        Varint.unzigzag32_zigzag32]
  | sint64 value =>
      simp only [type, payload, ScalarType.interpret, Varint.unzigzag64_zigzag64]
  | uint32 value =>
      simp only [type, payload, ScalarType.interpret, UInt32.toUInt32_toUInt64]
  | string text =>
      have htext : String.fromUTF8? ⟨text.toUTF8.data.toList.toArray⟩ = some text :=
        dif_pos text.isValidUTF8
      simp only [type, payload, ScalarType.interpret, htext, Option.map_some]
  | _ => rfl

/-! ## Depth -/

mutual

/-- How deep messages are nested in the payload of a value. -/
def Value.depth (catalog : Catalog) : ValueType → Value → Nat
  | .message name, .message message => message.depth catalog (catalog.schema name) + 1
  | .option inner, .present value => value.depth catalog inner
  | .converted _ wire, .reference _ value => value.depth catalog wire
  | _, _ => 0

/-- How deep messages are nested in the records of a message. -/
def Message.depth (catalog : Catalog) (schema : MessageSchema) : Message → Nat
  | .mk contents _ _ => contentsDepth catalog schema.entries contents

/-- How deep messages are nested in the records of entries. -/
def contentsDepth (catalog : Catalog) : List Entry → List Content → Nat
  | entry :: entries, content :: contents =>
      max (content.depth catalog entry) (contentsDepth catalog entries contents)
  | _, _ => 0

/-- How deep messages are nested in the records of an entry. A value that is left out does not
count. -/
def Content.depth (catalog : Catalog) : Entry → Content → Nat
  | .singular _ _ type _ nonNull, .singular value =>
      if nonNull || !value.isOmitted catalog type then value.depth catalog type else 0
  | .repeated _ _ element _, .repeated values => valuesDepth catalog element values
  | .map _ _ _ type _, .mapping entries => entriesDepth catalog type entries
  | .oneof _ schema _, .chosen place value =>
      match schema.members[place]? with
      | some member => value.depth catalog member.type
      | none => 0
  | _, _ => 0

/-- How deep messages are nested in values. -/
def valuesDepth (catalog : Catalog) (type : ValueType) : List Value → Nat
  | [] => 0
  | value :: values => max (value.depth catalog type) (valuesDepth catalog type values)

/-- How deep messages are nested in the values of a map. -/
def entriesDepth (catalog : Catalog) (type : ValueType) : List (Scalar × Value) → Nat
  | [] => 0
  | (_, value) :: entries => max (value.depth catalog type) (entriesDepth catalog type entries)

end

section Depth

variable {catalog : Catalog}

/-- No message is nested in a value that can be packed. -/
theorem Value.depth_of_isPackable {type : ValueType} (hpackable : type.fieldType.isPackable = true)
    (value : Value) : value.depth catalog type = 0 := by
  induction type generalizing value with
  | scalar type | enumeration schema => cases value <;> rfl
  | message name => cases hpackable
  | option inner ih =>
      cases value with
      | present value => exact ih hpackable value
      | _ => rfl
  | converted converter wire ih =>
      cases value with
      | reference held value => exact ih hpackable value
      | _ => rfl

theorem depth_le_valuesDepth {type : ValueType} {values : List Value} {value : Value}
    (hvalue : value ∈ values) : value.depth catalog type ≤ valuesDepth catalog type values := by
  induction values with
  | nil => cases hvalue
  | cons other values ih =>
      rw [valuesDepth]
      rcases List.mem_cons.mp hvalue with rfl | hvalue
      · exact Nat.le_max_left _ _
      · exact (ih hvalue).trans (Nat.le_max_right _ _)

theorem depth_le_entriesDepth {type : ValueType} {entries : List (Scalar × Value)}
    {entry : Scalar × Value} (hentry : entry ∈ entries) :
    entry.2.depth catalog type ≤ entriesDepth catalog type entries := by
  induction entries with
  | nil => cases hentry
  | cons other entries ih =>
      rw [entriesDepth]
      rcases List.mem_cons.mp hentry with rfl | hentry
      · exact Nat.le_max_left _ _
      · exact (ih hentry).trans (Nat.le_max_right _ _)

theorem depth_le_contentsDepth {entries : List Entry} {contents : List Content}
    {pair : Entry × Content} (hpair : pair ∈ entries.zip contents) :
    pair.2.depth catalog pair.1 ≤ contentsDepth catalog entries contents := by
  induction entries generalizing contents with
  | nil => cases hpair
  | cons entry entries ih =>
      cases contents with
      | nil => cases hpair
      | cons content contents =>
          rw [contentsDepth]
          rcases List.mem_cons.mp hpair with rfl | hpair
          · exact Nat.le_max_left _ _
          · exact (ih hpair).trans (Nat.le_max_right _ _)

end Depth

/-! ## Values -/

/-- A payload within the address space means the value it was written for, as it is received. -/
structure Value.Restored (catalog : Catalog) (type : ValueType) (value : Value) : Prop where
  wireType_eq : (value.payload catalog type).wireType = type.wireType
  interpret_eq : ∀ levels, value.depth catalog type ≤ levels →
    (value.payload catalog type).size < addressSpace →
      type.interpret (catalog.nested? levels) (value.payload catalog type) =
        some (value.rebuild catalog .received type)

theorem Value.restored_scalar {catalog : Catalog} (scalar : Scalar) :
    Value.Restored catalog (.scalar scalar.type) (.scalar scalar) where
  wireType_eq := scalar.wireType_payload
  interpret_eq _ _ _ := congrArg (Option.map Value.scalar) scalar.interpret_payload

theorem Value.restored_enumeration {catalog : Catalog} (schema : EnumSchema) (value : EnumValue) :
    Value.Restored catalog (.enumeration schema) (.enumeration value) where
  wireType_eq := rfl
  interpret_eq levels _ _ := by
    rw [Value.payload, ValueType.interpret, Varint.toInt32_signExtend]
    rfl

theorem Value.Restored.reference {catalog : Catalog} {converter : String} {wire : ValueType}
    {held : HeldForm} {value : Value} (hwire : value.Restored catalog wire) :
    Value.Restored catalog (.converted converter wire) (.reference held value) where
  wireType_eq := hwire.wireType_eq
  interpret_eq levels hlevels hsize :=
    congrArg (Option.map (Value.reference .wire)) (hwire.interpret_eq levels hlevels hsize)

namespace UnknownValue

theorem length_lt_of_size {payload : Bytes} (hsize : (lengthDelimited payload).size < addressSpace) :
    payload.length < addressSpace := by
  rw [size, Varint.delimitedSize] at hsize
  omega

theorem size_lt_of_flatMap {payloads : List UnknownValue}
    (hlength : (payloads.flatMap (·.encode)).length < addressSpace) :
    ∀ payload ∈ payloads, payload.size < addressSpace := by
  intro payload hpayload
  have hle := length_le_flatMap (fun payload : UnknownValue => payload.encode) hpayload
  rw [length_encode] at hle
  omega

end UnknownValue

/-- Records that are joined within the address space can be told apart again. -/
theorem UnknownField.sendable_of_encodeAll {records : List UnknownField}
    (hnumbers : ∀ record ∈ records, Tag.inRange record.number = true)
    (hlength : (encodeAll records).length < addressSpace) :
    ∀ record ∈ records, record.Sendable := by
  intro record hrecord
  have hle := length_le_flatMap (fun record : UnknownField => record.encode) hrecord
  rw [length_encode (hnumbers record hrecord), size] at hle
  rw [encodeAll] at hlength
  exact ⟨hnumbers record hrecord, by omega⟩

theorem ValueType.wireType_of_isPackable {type : ValueType}
    (hpackable : type.fieldType.isPackable = true) : type.wireType ≠ .len := by
  induction type with
  | scalar type =>
      cases type with
      | string | bytes => cases hpackable
      | _ => decide
  | enumeration schema => exact nofun
  | message name => cases hpackable
  | option inner ih => exact ih hpackable
  | converted converter wire ih => exact ih hpackable

/-! ## Contents -/

/-- What the default of an entry and the search for a member rely on. -/
structure Entry.Restorable (catalog : Catalog) (entry : Entry) : Prop where
  declarable : entry.Declarable
  nodup : entry.numbers.Nodup
  defaulted : entry.defaulted catalog = true

/-- The records of a content go to its entry, and within the address space they make up the content
as it is received. -/
structure Content.Restored (catalog : Catalog) (dialect : Dialect) (entry : Entry)
    (content : Content) : Prop where
  number_mem : ∀ record ∈ content.records catalog dialect entry, record.number ∈ entry.numbers
  accepts_eq : ∀ record ∈ content.records catalog dialect entry, entry.accepts record.tag = true
  assemble_eq : ∀ levels, content.depth catalog entry ≤ levels →
    (∀ record ∈ content.records catalog dialect entry, record.value.size < addressSpace) →
      entry.assemble? catalog (catalog.nested? levels) (content.records catalog dialect entry) =
        some (content.rebuild catalog .received entry)

section Contents

variable {catalog : Catalog} {holds : MessageSchema → Message → Prop} {dialect : Dialect}

/-- Elements that are not packed have a record each. -/
theorem Content.records_elements {element : ValueType} {packed : Option Bool} {values : List Value}
    (hempty : ¬ values.isEmpty = true) (hpacks : ¬ dialect.packs element.fieldType packed = true)
    (name : String) (number : UInt32) :
    Content.records catalog dialect (.repeated name number element packed) (.repeated values) =
      values.map fun value => ⟨number, value.payload catalog element⟩ := by
  rw [records, if_neg hempty, if_neg hpacks, valuePayloads_eq, List.map_map]
  rfl

theorem Content.records_mapping (name : String) (number : UInt32) (key : ScalarType)
    (type : ValueType) (order : MapOrder) (entries : List (Scalar × Value)) :
    Content.records catalog dialect (.map name number key type order) (.mapping entries) =
      entries.map fun entry =>
        ⟨number, entryPayload entry.1.payload (entry.2.payload catalog type)⟩ := by
  rw [records, entryPayloads_eq, List.map_map]
  rfl

theorem Content.records_chosen {schema : OneofSchema} {place : Nat} {member : Member}
    (hmember : schema.members[place]? = some member) (name : String) (required : Bool)
    (value : Value) :
    Content.records catalog dialect (.oneof name schema required) (.chosen place value) =
      [⟨member.number, value.payload catalog member.type⟩] := by
  rw [records, hmember]

theorem Content.Restored.of_records {entry : Entry} {content : Content}
    {records : List UnknownField} (hrecords : content.records catalog dialect entry = records)
    (hnumber : ∀ record ∈ records, record.number ∈ entry.numbers)
    (haccepts : ∀ record ∈ records, entry.accepts record.tag = true)
    (hassemble : ∀ levels, content.depth catalog entry ≤ levels →
      (∀ record ∈ records, record.value.size < addressSpace) →
        entry.assemble? catalog (catalog.nested? levels) records =
          some (content.rebuild catalog .received entry)) :
    content.Restored catalog dialect entry := by
  subst hrecords
  exact ⟨hnumber, haccepts, hassemble⟩

/-- A content without records is what its entry makes of none. -/
theorem Content.Restored.of_no_records {entry : Entry} {content : Content}
    (hrecords : content.records catalog dialect entry = [])
    (hassemble : ∀ levels, entry.assemble? catalog (catalog.nested? levels) [] =
      some (content.rebuild catalog .received entry)) :
    content.Restored catalog dialect entry :=
  .of_records hrecords (fun _ hrecord => (List.not_mem_nil hrecord).elim)
    (fun _ hrecord => (List.not_mem_nil hrecord).elim) fun levels _ _ => hassemble levels

/-- A content with one record is what its entry makes of it. -/
theorem Content.Restored.of_record {entry : Entry} {content : Content} {record : UnknownField}
    (hrecord : content.records catalog dialect entry = [record])
    (hnumber : record.number ∈ entry.numbers) (haccepts : entry.accepts record.tag = true)
    (hassemble : ∀ levels, content.depth catalog entry ≤ levels →
      record.value.size < addressSpace →
        entry.assemble? catalog (catalog.nested? levels) [record] =
          some (content.rebuild catalog .received entry)) :
    content.Restored catalog dialect entry :=
  .of_records hrecord (List.forall_mem_singleton.mpr hnumber)
    (List.forall_mem_singleton.mpr haccepts) fun levels hlevels hsize =>
      hassemble levels hlevels (hsize record (List.mem_singleton_self record))

theorem restored_singular {name : String} {number : UInt32} {type : ValueType}
    {optional nonNull : Bool} {value : Value} (hvalue : value.Conforms catalog holds type)
    (hentry : (Entry.singular name number type optional nonNull).Restorable catalog)
    (hrestored : type.isPlain = true ∨ value.isOmitted catalog type = false →
      value.Restored catalog type) :
    Content.Restored catalog dialect (.singular name number type optional nonNull)
      (.singular value) := by
  by_cases hwritten : (nonNull || !value.isOmitted catalog type) = true
  · have hread := hrestored (Entry.isPlain_or_of_written hentry.declarable.2 hwritten)
    have hrecord : Content.records catalog dialect (.singular name number type optional nonNull)
        (.singular value) = [⟨number, value.payload catalog type⟩] := if_pos hwritten
    refine .of_record hrecord (List.mem_singleton_self number)
      (beq_iff_eq.mpr (congrArg (Tag.make number) hread.wireType_eq)) ?_
    intro levels hlevels hsize
    rw [Content.depth, if_pos hwritten] at hlevels
    have hinterpret := hread.interpret_eq levels hlevels hsize
    simp only [Entry.assemble?, List.mapM_cons, List.mapM_nil, hinterpret, Content.rebuild]
    cases nonNull with
    | true => rfl
    | false =>
        have hpositive := positive_of_not_isOmitted .received hvalue (by simpa using hwritten)
        exact congrArg (fun value => some (Content.singular value)) hpositive.symm
  · have hrecords : Content.records catalog dialect (.singular name number type optional nonNull)
        (.singular value) = [] := if_neg hwritten
    simp only [Bool.or_eq_true, Bool.not_eq_true', not_or, Bool.not_eq_false,
      Bool.not_eq_true] at hwritten
    obtain ⟨rfl, homitted⟩ := hwritten
    refine .of_no_records hrecords fun levels => ?_
    -- Nothing was written, so the default is read; it is the value but for the sign of zeros.
    obtain ⟨default, hdefault⟩ := Option.isSome_iff_exists.mp hentry.defaulted
    have hreceived := default_eq_received hvalue homitted hdefault
    simp only [Entry.assemble?, List.mapM_nil, hdefault, hreceived]
    rfl

/-- A packed run is read as the elements it was written for. -/
theorem elements_run {element : ValueType} {values : List Value} {levels : Nat}
    (hvalues : ∀ value ∈ values, value.Restored catalog element)
    (hpackable : element.fieldType.isPackable = true)
    (hlevels : valuesDepth catalog element values ≤ levels)
    (hlength : ((valuePayloads catalog element values).flatMap (·.encode)).length < addressSpace) :
    element.elements? (catalog.nested? levels)
        (.lengthDelimited ((valuePayloads catalog element values).flatMap (·.encode))) =
      some (values.map fun value => value.rebuild catalog .received element) := by
  have hsizes := UnknownValue.size_lt_of_flatMap hlength
  rw [valuePayloads_eq] at hsizes ⊢
  have hsplit := @UnknownValue.split_encode element.wireType
    (values.map fun value => value.payload catalog element) (by
      intro payload hpayload
      refine ⟨?_, hsizes payload hpayload⟩
      obtain ⟨value, hvalue, rfl⟩ := List.mem_map.mp hpayload
      exact (hvalues value hvalue).wireType_eq)
  rw [ValueType.elements_packed (ValueType.wireType_of_isPackable hpackable), hsplit,
    Option.bind_some, List.mapM_map]
  refine mapM_eq_map fun value hvalue => ?_
  exact (hvalues value hvalue).interpret_eq levels ((depth_le_valuesDepth hvalue).trans hlevels)
    (hsizes _ (List.mem_map_of_mem hvalue))

/-- Elements with a record each are read as what they were written for. -/
theorem elements_records {element : ValueType} {values : List Value} {levels : Nat}
    (hvalues : ∀ value ∈ values, value.Restored catalog element)
    (hlevels : valuesDepth catalog element values ≤ levels)
    (hsizes : ∀ value ∈ values, (value.payload catalog element).size < addressSpace) :
    values.mapM (fun value =>
        element.elements? (catalog.nested? levels) (value.payload catalog element)) =
      some (values.map fun value => [value.rebuild catalog .received element]) := by
  refine mapM_eq_map fun value hvalue => ?_
  have hread := hvalues value hvalue
  rw [ValueType.elements_single hread.wireType_eq, hread.interpret_eq levels
    ((depth_le_valuesDepth hvalue).trans hlevels) (hsizes value hvalue)]
  rfl

theorem restored_repeated {name : String} {number : UInt32} {element : ValueType}
    {packed : Option Bool} {values : List Value}
    (hvalues : ∀ value ∈ values, value.Restored catalog element) :
    Content.Restored catalog dialect (.repeated name number element packed) (.repeated values) := by
  have hrebuild : Content.rebuild catalog .received (.repeated name number element packed)
      (.repeated values) =
        .repeated (values.map fun value => value.rebuild catalog .received element) := by
    rw [Content.rebuild, rebuildValues_eq]
  by_cases hempty : values.isEmpty = true
  · refine .of_no_records (if_pos hempty) fun levels => ?_
    rw [hrebuild, List.isEmpty_iff.mp hempty]
    rfl
  · by_cases hpacks : dialect.packs element.fieldType packed = true
    · have hrecord : Content.records catalog dialect (.repeated name number element packed)
          (.repeated values) = [⟨number, .lengthDelimited
            ((valuePayloads catalog element values).flatMap (·.encode))⟩] := by
        rw [Content.records, if_neg hempty, if_pos hpacks]
      have hpackable : element.fieldType.isPackable = true := (Bool.and_eq_true_iff.mp hpacks).1
      refine .of_record hrecord (List.mem_singleton_self number)
        (Bool.or_eq_true_iff.mpr (.inr (beq_self_eq_true _))) ?_
      intro levels hlevels hsize
      have hrun := elements_run hvalues hpackable hlevels (UnknownValue.length_lt_of_size hsize)
      simp only [hrebuild, Entry.assemble?, List.mapM_cons, List.mapM_nil, hrun, Option.pure_def,
        Option.bind_eq_bind, Option.bind_some, List.flatten_singleton]
    · refine .of_records (Content.records_elements hempty hpacks name number) ?_ ?_ ?_
      · intro record hrecord
        obtain ⟨value, _, rfl⟩ := List.mem_map.mp hrecord
        exact List.mem_singleton_self number
      · intro record hrecord
        obtain ⟨value, hvalue, rfl⟩ := List.mem_map.mp hrecord
        have htag := congrArg (Tag.make number) (hvalues value hvalue).wireType_eq
        exact Bool.or_eq_true_iff.mpr (.inl (beq_iff_eq.mpr htag))
      · intro levels hlevels hsizes
        have hread := elements_records hvalues hlevels fun value hvalue =>
          hsizes _ (List.mem_map_of_mem hvalue)
        have hflatten : (values.map fun value =>
            [value.rebuild catalog .received element]).flatten =
              values.map fun value => value.rebuild catalog .received element :=
          (List.map_eq_flatMap.trans List.flatMap_def).symm
        simp only [hrebuild, Entry.assemble?, List.mapM_map, Function.comp_def, hread,
          Option.bind_eq_bind, Option.bind_some, hflatten]
        rfl

theorem sendable_of_entryPayload {key payload : UnknownValue}
    (hsize : (entryPayload key payload).size < addressSpace) :
    ∀ record ∈ [UnknownField.mk 1 key, ⟨2, payload⟩], record.Sendable := by
  refine UnknownField.sendable_of_encodeAll ?_ (UnknownValue.length_lt_of_size hsize)
  intro record hrecord
  simp only [List.mem_cons, List.not_mem_nil, or_false] at hrecord
  rcases hrecord with rfl | rfl
  · exact (by decide : Tag.inRange 1 = true)
  · exact (by decide : Tag.inRange 2 = true)

/-- The payload of a map entry is read as the key it was written for and what the payload of the
value is read as. -/
theorem mapEntryOf_entryPayload {key : Scalar} {type : ValueType} {payload : UnknownValue}
    (hwire : payload.wireType = type.wireType)
    (hsize : (entryPayload key.payload payload).size < addressSpace)
    (body : String → Bytes → Option Message) (default : Value) :
    mapEntryOf body key.type type default (entryPayload key.payload payload) =
      (type.interpret body payload).map fun value => (key, value) := by
  have hsplit := UnknownField.split_encode (sendable_of_entryPayload hsize)
  have hkey : UnknownField.tag ⟨1, key.payload⟩ = mapKeyTag key.type := by
    rw [UnknownField.tag, Scalar.wireType_payload, mapKeyTag]
  have hvalueTag : UnknownField.tag ⟨2, payload⟩ = mapValueTag type := by
    rw [UnknownField.tag, hwire, mapValueTag]
  -- Each of the two records passes one filter only.
  have hne := mapKeyTag_ne_mapValueTag key.type type
  simp only [entryPayload, mapEntryOf, UnknownField.encodeAll, hsplit, Option.bind_eq_bind,
    Option.bind_some]
  cases hinterpret : type.interpret body payload <;>
    simp [hkey, hvalueTag, hne, hne.symm, Scalar.interpret_payload, hinterpret]

/-- An entry of a map is read from its payload as what it was written for. -/
theorem entry_restored {key : ScalarType} {type : ValueType} {entry : Scalar × Value} {levels : Nat}
    (hkey : entry.1.type = key) (hvalue : entry.2.Restored catalog type)
    (hlevels : entry.2.depth catalog type ≤ levels)
    (hsize : (entryPayload entry.1.payload (entry.2.payload catalog type)).size < addressSpace)
    (default : Value) :
    mapEntryOf (catalog.nested? levels) key type default
        (entryPayload entry.1.payload (entry.2.payload catalog type)) =
      some (entry.1, entry.2.rebuild catalog .received type) := by
  have hinterpret := hvalue.interpret_eq levels hlevels
    (sendable_of_entryPayload hsize ⟨2, _⟩ (by simp)).2
  rw [← hkey, mapEntryOf_entryPayload hvalue.wireType_eq hsize, hinterpret]
  rfl

theorem restored_map {name : String} {number : UInt32} {key : ScalarType} {type : ValueType}
    {order : MapOrder} {entries : List (Scalar × Value)}
    (hkeys : ∀ entry ∈ entries, entry.1.type = key)
    (hvalues : ∀ entry ∈ entries, entry.2.Restored catalog type) :
    Content.Restored catalog dialect (.map name number key type order) (.mapping entries) := by
  refine .of_records (Content.records_mapping name number key type order entries) ?_ ?_ ?_
  · intro record hrecord
    obtain ⟨entry, _, rfl⟩ := List.mem_map.mp hrecord
    exact List.mem_singleton_self number
  · intro record hrecord
    obtain ⟨entry, _, rfl⟩ := List.mem_map.mp hrecord
    exact beq_self_eq_true _
  · intro levels hlevels hsizes
    have hread := mapM_eq_map fun entry hentry =>
      entry_restored (hkeys entry hentry) (hvalues entry hentry)
        ((depth_le_entriesDepth hentry).trans hlevels) (hsizes _ (List.mem_map_of_mem hentry))
        ((catalog.default? type).getD .absent)
    simp only [Entry.assemble?, List.mapM_map, Function.comp_def, hread, Content.rebuild,
      rebuildEntries_eq]
    rfl

/-- The member that a record was written for is found again. -/
theorem OneofSchema.memberFor_tag {schema : OneofSchema} {place : Nat} {member : Member}
    (hnumbers : ∀ member ∈ schema.members, Tag.inRange member.number = true)
    (hnodup : (schema.members.map (·.number)).Nodup)
    (hmember : schema.members[place]? = some member) :
    schema.memberFor? member.tag = some place := by
  obtain ⟨hlt, rfl⟩ := List.getElem?_eq_some_iff.mp hmember
  refine List.findIdx?_eq_some_iff_getElem.mpr ⟨hlt, beq_self_eq_true _, ?_⟩
  intro earlier hearlier htag
  have hnumber := (Tag.make_injective (hnumbers _ (List.getElem_mem (hearlier.trans hlt)))
    (hnumbers _ (List.getElem_mem hlt)) (beq_iff_eq.mp htag)).1
  have hapart := List.pairwise_iff_getElem.mp (List.pairwise_map.mp hnodup)
  exact hapart earlier place (hearlier.trans hlt) hlt hearlier hnumber

theorem restored_chosen {name : String} {schema : OneofSchema} {required : Bool} {place : Nat}
    {member : Member} {value : Value} (hmember : schema.members[place]? = some member)
    (hentry : (Entry.oneof name schema required).Restorable catalog)
    (hvalue : value.Restored catalog member.type) :
    Content.Restored catalog dialect (.oneof name schema required) (.chosen place value) := by
  have htag : UnknownField.tag ⟨member.number, value.payload catalog member.type⟩ = member.tag :=
    congrArg (Tag.make member.number) hvalue.wireType_eq
  have hfound := OneofSchema.memberFor_tag (fun member hmember => hentry.declarable.1 member.number
    (List.mem_map_of_mem hmember)) hentry.nodup hmember
  refine .of_record (Content.records_chosen hmember name required value)
    (List.mem_map_of_mem (List.mem_of_getElem? hmember)) ?_ ?_
  · rw [htag]
    exact Option.isSome_iff_exists.mpr ⟨place, hfound⟩
  · intro levels hlevels hsize
    have hdepth : value.depth catalog member.type ≤ levels := by
      rw [Content.depth, hmember] at hlevels
      exact hlevels
    have hinterpret := hvalue.interpret_eq levels hdepth hsize
    have hchoice : schema.choice? (catalog.nested? levels)
        ⟨member.number, value.payload catalog member.type⟩ =
          some (place, value.rebuild catalog .received member.type) := by
      simp only [OneofSchema.choice?, htag, hfound, hmember, hinterpret, Option.bind_eq_bind,
        Option.bind_some, Option.pure_def]
    simp only [Entry.assemble?, List.mapM_cons, List.mapM_nil, hchoice, Content.rebuild, hmember]
    rfl

end Contents

/-! ## Own records -/

/-- No record is taken by both entries. -/
def Entry.Apart (entry other : Entry) : Prop :=
  ∀ tag, entry.accepts tag = true → other.accepts tag = false

theorem MessageSchema.Numbered.apart {schema : MessageSchema} (hnumbered : schema.Numbered) :
    schema.entries.Pairwise Entry.Apart := by
  rw [List.pairwise_iff_getElem]
  intro place place' hlt hlt' hbefore tag haccepts
  by_contra htaken
  rw [Bool.not_eq_false] at htaken
  have hsame := hnumbered.place_eq_of_accepts (List.getElem?_eq_getElem hlt)
    (List.getElem?_eq_getElem hlt') haccepts htaken
  omega

namespace Entry

theorem own_append (entry : Entry) (records records' : List UnknownField) :
    entry.own (records ++ records') = entry.own records ++ entry.own records' :=
  List.filter_append records records'

theorem own_of_accepts {entry : Entry} {records : List UnknownField}
    (haccepts : ∀ record ∈ records, entry.accepts record.tag = true) :
    entry.own records = records :=
  List.filter_eq_self.mpr haccepts

theorem own_of_not_accepts {entry : Entry} {records : List UnknownField}
    (haccepts : ∀ record ∈ records, entry.accepts record.tag = false) : entry.own records = [] :=
  List.filter_eq_nil_iff.mpr fun record hrecord => Bool.eq_false_iff.mp (haccepts record hrecord)

end Entry

section Own

variable {catalog : Catalog} {dialect : Dialect}

theorem contentsRecords_eq (entries : List Entry) (contents : List Content) :
    contentsRecords catalog dialect entries contents = (entries.zip contents).flatMap fun pair =>
      pair.2.records catalog dialect pair.1 := by
  induction entries generalizing contents with
  | nil => cases contents <;> rfl
  | cons entry entries ih =>
      cases contents with
      | nil => rfl
      | cons content contents => rw [contentsRecords, ih, List.zip_cons_cons, List.flatMap_cons]

theorem rebuildContents_eq {rewriting : Rewriting} {entries : List Entry} {contents : List Content}
    (hlength : entries.length = contents.length) :
    rebuildContents catalog rewriting entries contents = (entries.zip contents).map fun pair =>
      pair.2.rebuild catalog rewriting pair.1 := by
  induction entries generalizing contents with
  | nil =>
      rw [List.length_nil, eq_comm, List.length_eq_zero_iff] at hlength
      rw [hlength]
      rfl
  | cons entry entries ih =>
      obtain ⟨content, contents, rfl⟩ := List.exists_cons_of_length_eq_add_one hlength.symm
      rw [rebuildContents, ih (by simpa using hlength), List.zip_cons_cons, List.map_cons]

/-- Among the records of all entries, an entry finds its own again. -/
theorem own_contentsRecords {entries : List Entry} {contents : List Content}
    (hapart : entries.Pairwise Entry.Apart)
    (haccepts : ∀ pair ∈ entries.zip contents, ∀ record ∈ pair.2.records catalog dialect pair.1,
      pair.1.accepts record.tag = true) {pair : Entry × Content}
    (hpair : pair ∈ entries.zip contents) :
    pair.1.own (contentsRecords catalog dialect entries contents) =
      pair.2.records catalog dialect pair.1 := by
  induction entries generalizing contents with
  | nil => cases hpair
  | cons entry entries ih =>
      cases contents with
      | nil => cases hpair
      | cons content contents =>
          obtain ⟨hfirst, hothers⟩ := List.pairwise_cons.mp hapart
          rw [List.zip_cons_cons] at haccepts hpair
          have hcontent := haccepts (entry, content) List.mem_cons_self
          have hcontents := fun pair hpair =>
            haccepts pair (List.mem_cons_of_mem (entry, content) hpair)
          rw [contentsRecords, Entry.own_append]
          rcases List.mem_cons.mp hpair with rfl | hpair
          -- The records behind belong to other entries, and no record belongs to two.
          · rw [Entry.own_of_accepts hcontent, Entry.own_of_not_accepts, List.append_nil]
            intro record hrecord
            rw [contentsRecords_eq] at hrecord
            obtain ⟨other, hother, hrecord⟩ := List.mem_flatMap.mp hrecord
            by_contra htaken
            rw [Bool.not_eq_false] at htaken
            have hnot := hfirst other.1 (List.of_mem_zip hother).1 record.tag htaken
            rw [hcontents other hother record hrecord] at hnot
            cases hnot
          · rw [Entry.own_of_not_accepts fun record hrecord =>
              hfirst pair.1 (List.of_mem_zip hpair).1 record.tag (hcontent record hrecord),
              List.nil_append]
            exact ih hothers hcontents hpair

end Own

/-! ## Messages -/

/-- The captured records of a message have numbers in range, and no entry takes any of them. A
message type that keeps none has none. -/
structure Message.UnknownApart (schema : MessageSchema) (message : Message) : Prop where
  numbered : message.unknown.Numbered
  accepts_eq : ∀ field ∈ message.unknown.fields, ∀ entry ∈ schema.entries,
    entry.accepts field.tag = false
  eq_empty : schema.keepsUnknown = false → message.unknown = .empty

/-- All records of a message are sorted by where they belong, and every content is restored. -/
structure Message.Restored (catalog : Catalog) (schema : MessageSchema) (message : Message) :
    Prop where
  numbered : schema.Numbered
  unknownApart : message.UnknownApart schema
  length_eq : schema.entries.length = message.contents.length
  restored : ∀ pair ∈ schema.entries.zip message.contents,
    pair.2.Restored catalog schema.dialect pair.1

namespace Message.Restored

variable {catalog : Catalog} {schema : MessageSchema} {message : Message}

theorem records_eq (message : Message) :
    message.records catalog schema =
      contentsRecords catalog schema.dialect schema.entries message.contents ++
        message.unknown.fields := by
  obtain ⟨contents, unknown, cache⟩ := message
  rfl

theorem depth_eq (message : Message) :
    message.depth catalog schema = contentsDepth catalog schema.entries message.contents := by
  obtain ⟨contents, unknown, cache⟩ := message
  rfl

theorem mem_contentsRecords {record : UnknownField}
    (hrecord : record ∈ contentsRecords catalog schema.dialect schema.entries message.contents) :
    ∃ pair ∈ schema.entries.zip message.contents,
      record ∈ pair.2.records catalog schema.dialect pair.1 := by
  rw [contentsRecords_eq] at hrecord
  exact List.mem_flatMap.mp hrecord

theorem inRange (hmessage : message.Restored catalog schema) :
    ∀ record ∈ message.records catalog schema, Tag.inRange record.number = true := by
  intro record hrecord
  rw [records_eq] at hrecord
  rcases List.mem_append.mp hrecord with hrecord | hrecord
  · obtain ⟨pair, hpair, hrecord⟩ := mem_contentsRecords hrecord
    exact hmessage.numbered.inRange (List.of_mem_zip hpair).1
      ((hmessage.restored pair hpair).number_mem record hrecord)
  · exact hmessage.unknownApart.numbered record hrecord

theorem split_eq (hmessage : message.Restored catalog schema)
    (hlength : (message.body catalog schema).length < addressSpace) :
    Bytes.split? UnknownField.cut? (message.body catalog schema) =
      some (message.records catalog schema) :=
  UnknownField.split_encode (UnknownField.sendable_of_encodeAll hmessage.inRange hlength)

theorem size_lt (hmessage : message.Restored catalog schema)
    (hlength : (message.body catalog schema).length < addressSpace) {pair : Entry × Content}
    (hpair : pair ∈ schema.entries.zip message.contents) :
    ∀ record ∈ pair.2.records catalog schema.dialect pair.1, record.value.size < addressSpace := by
  intro record hrecord
  refine (UnknownField.sendable_of_encodeAll hmessage.inRange hlength record ?_).2
  rw [records_eq, contentsRecords_eq]
  exact List.mem_append_left _ (List.mem_flatMap.mpr ⟨pair, hpair, hrecord⟩)

/-- An entry finds its own records again among all records of a message. -/
theorem own_eq (hmessage : message.Restored catalog schema) {pair : Entry × Content}
    (hpair : pair ∈ schema.entries.zip message.contents) :
    pair.1.own (message.records catalog schema) =
      pair.2.records catalog schema.dialect pair.1 := by
  have hunknown : pair.1.own message.unknown.fields = [] :=
    Entry.own_of_not_accepts fun record hrecord =>
      hmessage.unknownApart.accepts_eq record hrecord pair.1 (List.of_mem_zip hpair).1
  rw [records_eq, Entry.own_append, hunknown, List.append_nil]
  exact own_contentsRecords hmessage.numbered.apart
    (fun pair hpair => (hmessage.restored pair hpair).accepts_eq) hpair

/-- The captured records are left over again. -/
theorem leftover_eq (hmessage : message.Restored catalog schema) :
    schema.leftover (message.records catalog schema) = message.unknown.fields := by
  have hcontents : schema.leftover
      (contentsRecords catalog schema.dialect schema.entries message.contents) = [] := by
    refine List.filter_eq_nil_iff.mpr fun record hrecord => ?_
    obtain ⟨pair, hpair, hrecord⟩ := mem_contentsRecords hrecord
    have htaken : schema.entries.any (·.accepts record.tag) = true :=
      List.any_eq_true.mpr ⟨pair.1, (List.of_mem_zip hpair).1,
        (hmessage.restored pair hpair).accepts_eq record hrecord⟩
    simp [htaken]
  have hunknown : schema.leftover message.unknown.fields = message.unknown.fields := by
    refine List.filter_eq_self.mpr fun record hrecord => ?_
    have hleft : schema.entries.any (·.accepts record.tag) = false :=
      List.any_eq_false.mpr fun entry hentry => Bool.eq_false_iff.mp
        (hmessage.unknownApart.accepts_eq record hrecord entry hentry)
    rw [hleft]
    rfl
  rw [MessageSchema.leftover] at hcontents hunknown ⊢
  rw [records_eq, List.filter_append, hcontents, hunknown, List.nil_append]

/-- The content of an entry is made up again from all records of a message. -/
theorem assemble_own_eq (hmessage : message.Restored catalog schema) {levels : Nat}
    (hlevels : message.depth catalog schema ≤ levels)
    (hlength : (message.body catalog schema).length < addressSpace) {pair : Entry × Content}
    (hpair : pair ∈ schema.entries.zip message.contents) :
    pair.1.assemble? catalog (catalog.nested? levels)
        (pair.1.own (message.records catalog schema)) =
      some (pair.2.rebuild catalog .received pair.1) := by
  rw [depth_eq] at hlevels
  rw [hmessage.own_eq hpair]
  exact (hmessage.restored pair hpair).assemble_eq levels
    ((depth_le_contentsDepth hpair).trans hlevels) (hmessage.size_lt hlength hpair)

/-- The records of a message make up the message as it is received. -/
theorem assemble_eq (hmessage : message.Restored catalog schema) {levels : Nat}
    (hlevels : message.depth catalog schema ≤ levels)
    (hlength : (message.body catalog schema).length < addressSpace) :
    schema.assemble? catalog (catalog.nested? levels) (message.records catalog schema) =
      some (message.asReceived catalog schema) := by
  have hcontents : schema.entries.mapM (fun entry =>
      entry.assemble? catalog (catalog.nested? levels)
        (entry.own (message.records catalog schema))) =
      some (rebuildContents catalog .received schema.entries message.contents) := by
    rw [rebuildContents_eq hmessage.length_eq]
    exact mapM_eq_map_zip hmessage.length_eq fun pair hpair =>
      hmessage.assemble_own_eq hlevels hlength hpair
  have hunknown : (⟨if schema.keepsUnknown then schema.leftover (message.records catalog schema)
      else []⟩ : UnknownFieldSet) = message.unknown := by
    rw [hmessage.leftover_eq]
    cases hkeeps : schema.keepsUnknown with
    | true => rfl
    | false =>
        rw [hmessage.unknownApart.eq_empty hkeeps]
        rfl
  rw [MessageSchema.assemble?, hcontents]
  simp only [Option.bind_eq_bind, Option.bind_some, Option.pure_def, hunknown]
  obtain ⟨contents, unknown, cache⟩ := message
  rfl

/-- The body of a message is the message as it is received. -/
theorem message_eq {name : String} (hmessage : message.Restored catalog (catalog.schema name))
    {levels : Nat} (hlevels : message.depth catalog (catalog.schema name) ≤ levels)
    (hlength : (message.body catalog (catalog.schema name)).length < addressSpace) :
    catalog.message? levels name (message.body catalog (catalog.schema name)) =
      some (message.asReceived catalog (catalog.schema name)) := by
  rw [Catalog.message_eq, hmessage.split_eq hlength, Option.bind_some,
    hmessage.assemble_eq hlevels hlength]

end Message.Restored

end ProtoWire
