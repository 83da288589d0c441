import ProtoWire.Proofs.AsWritten
import ProtoWire.Proofs.Decoded
import ProtoWire.Proofs.Repacked
import ProtoWire.Proofs.Truncated

/-! # Packed runs

Elements that can be packed come in any number of pieces, runs and single records alike, and are
joined in the order in which they come. A run is bounded by its length: one that elements of a fixed
width cannot fill is refused, and no element is read past the end of its run.
-/

namespace ProtoWire

/-! ## Elements that can be packed -/

section Packable

variable {catalog : Catalog} {holds : MessageSchema → Message → Prop} {element : ValueType}
  {value : Value}

theorem valuesDepth_of_isPackable (hpackable : element.fieldType.isPackable = true)
    (values : List Value) : valuesDepth catalog element values = 0 := by
  induction values with
  | nil => rfl
  | cons value values ih => rw [valuesDepth, value.depth_of_isPackable hpackable, ih, Nat.max_self]

theorem restored_of_isPackable (hpackable : element.fieldType.isPackable = true)
    (hplain : element.isPlain = true) (hvalue : value.Conforms catalog holds element) :
    value.Restored catalog element := by
  induction element generalizing value with
  | message name => cases hpackable
  | option inner => cases hplain
  | scalar type =>
      cases hvalue with
      | scalar _ scalar htype =>
          subst htype
          exact Value.restored_scalar scalar
  | enumeration schema =>
      cases hvalue with
      | enumeration _ value => exact Value.restored_enumeration schema value
  | converted converter wire ih =>
      cases hvalue with
      | reference _ _ held value hwire => exact (ih hpackable hplain hwire).reference

theorem scalars_conform {type : ScalarType} (scalars : List Scalar)
    (htypes : ∀ scalar ∈ scalars, scalar.type = type) :
    ∀ value ∈ scalars.map Value.scalar, value.Conforms catalog holds (.scalar type) := by
  intro value hvalue
  obtain ⟨scalar, hscalar, rfl⟩ := List.mem_map.mp hvalue
  exact .scalar type scalar (htypes scalar hscalar)

end Packable

/-! ## Lengths in records -/

theorem UnknownValue.size_lt_of_wireType {value : UnknownValue} (hwire : value.wireType ≠ .len) :
    value.size < addressSpace := by
  cases value with
  | varint word =>
      obtain ⟨n, hgroups, _⟩ := Varint.decode_eq_ok_iff.mp (Varint.denotes_encode word)
      have hcount := (Varint.decodeGroups_count hgroups).2.2
      rw [Varint.length_encode] at hcount
      exact hcount.trans_lt (by decide)
  | fixed32 word => exact (by decide : 4 < addressSpace)
  | fixed64 word => exact (by decide : 8 < addressSpace)
  | lengthDelimited payload => exact absurd rfl hwire

theorem UnknownValue.Frames.length_lt {bytes payload : Bytes}
    (hframes : (UnknownValue.lengthDelimited payload).Frames bytes) :
    payload.length < addressSpace := by
  cases hframes with
  | lengthDelimited front _ length _ hlength =>
      rw [hlength]
      exact length.toNat_lt

/-- A length that is written can count the payload behind it. -/
theorem SplitsInto.length_lt {bytes : Bytes} {records : List UnknownField}
    (hsplits : SplitsInto bytes records) : ∀ record ∈ records, ∀ payload,
      record.value = .lengthDelimited payload → payload.length < addressSpace := by
  induction hsplits with
  | nil => exact fun _ hrecord => (List.not_mem_nil hrecord).elim
  | cons front rest field fields hfront _ ih =>
      intro record hrecord payload hpayload
      rcases List.mem_cons.mp hrecord with rfl | hrecord
      · cases hfront with
        | mk key bytes _ raw _ _ _ _ _ hframes =>
            rw [hpayload] at hframes
            exact hframes.length_lt
      · exact ih record hrecord payload hpayload

/-! ## Pieces -/

/-- Consecutive elements of a repeated field that are written in one way: packed into one run, which
may be empty, or with a record for each. -/
structure Piece where
  values : List Value
  packed : Bool

namespace Piece

/-- The records that a piece is written as. -/
def records (catalog : Catalog) (number : UInt32) (element : ValueType) (piece : Piece) :
    List UnknownField :=
  if piece.packed then
    [⟨number, .lengthDelimited
      ((valuePayloads catalog element piece.values).flatMap (·.encode))⟩]
  else (valuePayloads catalog element piece.values).map (⟨number, ·⟩)

variable {catalog : Catalog} {holds : MessageSchema → Message → Prop} {number : UInt32}
  {element : ValueType} (hpackable : element.fieldType.isPackable = true)
  (hplain : element.isPlain = true) (levels : Nat)
include hpackable hplain

/-- The elements of a piece are read from its records, in whichever way it is written. -/
theorem elements_eq {piece : Piece}
    (hvalues : ∀ value ∈ piece.values, value.Conforms catalog holds element)
    (hlength : ∀ record ∈ piece.records catalog number element, ∀ payload,
      record.value = .lengthDelimited payload → payload.length < addressSpace) :
    ∃ runs, (piece.records catalog number element).mapM (fun record =>
        element.elements? (catalog.nested? levels) record.value) = some runs ∧
      runs.flatten = piece.values.map fun value => value.rebuild catalog .received element := by
  obtain ⟨values, packed⟩ := piece
  have hrestored : ∀ value ∈ values, value.Restored catalog element := fun value hvalue =>
    restored_of_isPackable hpackable hplain (hvalues value hvalue)
  have hdepth : valuesDepth catalog element values ≤ levels := by
    rw [valuesDepth_of_isPackable hpackable]
    exact Nat.zero_le levels
  cases packed with
  | true =>
      have hrun := elements_run hrestored hpackable hdepth
        (hlength _ (List.mem_singleton_self _) _ rfl)
      refine ⟨[values.map fun value => value.rebuild catalog .received element], ?_,
        List.flatten_singleton⟩
      rw [records, if_pos rfl, List.mapM_cons, hrun]
      rfl
  | false =>
      have hsizes : ∀ value ∈ values, (value.payload catalog element).size < addressSpace := by
        intro value hvalue
        refine UnknownValue.size_lt_of_wireType ?_
        rw [(hrestored value hvalue).wireType_eq]
        exact ValueType.wireType_of_isPackable hpackable
      refine ⟨values.map fun value => [value.rebuild catalog .received element], ?_, ?_⟩
      · rw [records, if_neg Bool.false_ne_true, valuePayloads_eq, List.map_map, List.mapM_map]
        exact elements_records hrestored hdepth hsizes
      · rw [← List.flatMap_def]
        exact List.map_eq_flatMap.symm

/-- The elements of all pieces are joined. -/
theorem elements_flatMap {pieces : List Piece}
    (hvalues : ∀ piece ∈ pieces, ∀ value ∈ piece.values, value.Conforms catalog holds element)
    (hlength : ∀ record ∈ pieces.flatMap (·.records catalog number element), ∀ payload,
      record.value = .lengthDelimited payload → payload.length < addressSpace) :
    ∃ runs, (pieces.flatMap (·.records catalog number element)).mapM (fun record =>
        element.elements? (catalog.nested? levels) record.value) = some runs ∧
      runs.flatten = (pieces.flatMap (·.values)).map fun value =>
        value.rebuild catalog .received element := by
  induction pieces with
  | nil => exact ⟨[], rfl, rfl⟩
  | cons piece pieces ih =>
      rw [List.flatMap_cons] at hlength
      obtain ⟨first, hfirst, hflat⟩ := elements_eq hpackable hplain levels
        (hvalues piece List.mem_cons_self) fun record hrecord =>
          hlength record (List.mem_append_left _ hrecord)
      obtain ⟨rest, hrest, hflats⟩ := ih
        (fun other hother => hvalues other (List.mem_cons_of_mem piece hother))
        fun record hrecord => hlength record (List.mem_append_right _ hrecord)
      refine ⟨first ++ rest, ?_, ?_⟩
      · rw [List.flatMap_cons, List.mapM_append, hfirst, hrest]
        rfl
      · rw [List.flatten_append, hflat, hflats, List.flatMap_cons, List.map_append]

end Piece

/-! ## Records of other entries -/

/-- The records that an entry does not take, in their order. -/
def Entry.others (entry : Entry) (records : List UnknownField) : List UnknownField :=
  records.filter fun record => !entry.accepts record.tag

namespace MessageSchema

variable {schema : MessageSchema} {place : Nat} {entry : Entry} {records : List UnknownField}

/-- What the other entries take is there without the records of an entry. -/
theorem Numbered.own_others (hnumbered : schema.Numbered)
    (hentry : schema.entries[place]? = some entry) {place' : Nat} {other : Entry}
    (hother : schema.entries[place']? = some other) (hplace : place' ≠ place) :
    other.own (entry.others records) = other.own records := by
  rw [Entry.own, Entry.own, Entry.others, List.filter_filter]
  refine List.filter_congr fun record _ => ?_
  cases hothers : other.accepts record.tag with
  | false => rfl
  | true =>
      have hnot : entry.accepts record.tag = false := by
        by_contra haccepts
        rw [Bool.not_eq_false] at haccepts
        exact hplace (hnumbered.place_eq_of_accepts hother hentry hothers haccepts)
      rw [hnot]
      rfl

theorem leftover_others (hentry : schema.entries[place]? = some entry) :
    schema.leftover (entry.others records) = schema.leftover records := by
  rw [leftover, leftover, Entry.others, List.filter_filter]
  refine List.filter_congr fun record _ => ?_
  cases haccepts : entry.accepts record.tag with
  | false => rw [Bool.not_false, Bool.and_true]
  | true =>
      have htaken : schema.entries.any (·.accepts record.tag) = true :=
        List.any_eq_true.mpr ⟨entry, List.mem_of_getElem? hentry, haccepts⟩
      rw [htaken]
      rfl

/-- The records of an entry make its content and change nothing else of the message. -/
theorem Numbered.assemble_set (hnumbered : schema.Numbered) {catalog : Catalog}
    {body : String → Bytes → Option Message} (hentry : schema.entries[place]? = some entry)
    {message : Message} {content : Content}
    (hothers : schema.assemble? catalog body (entry.others records) = some message)
    (hcontent : entry.assemble? catalog body (entry.own records) = some content) :
    schema.assemble? catalog body records =
      some (message.withContents (message.contents.set place content)) := by
  obtain ⟨contents, hcontents, hmade⟩ := Option.bind_eq_some_iff.mp hothers
  cases hmade
  have hset : schema.entries.mapM (fun other => other.assemble? catalog body (other.own records)) =
      some (contents.set place content) :=
    mapM_set hcontents hentry hcontent fun place' other hother hplace => by
      rw [hnumbered.own_others hentry hother hplace]
  rw [assemble?, hset, leftover_others hentry]
  rfl

end MessageSchema

/-- Elements that can be packed are read from pieces, in the order in which the pieces come, whatever
records of other entries come between them. -/
theorem Catalog.decode_pieces {catalog : Catalog} (hnumbered : catalog.Numbered)
    (hoptions : catalog.OptionsSingular) {holds : MessageSchema → Message → Prop} {name : String}
    {place : Nat} {field : String} {number : UInt32} {element : ValueType} {packed : Option Bool}
    (hentry : (catalog.schema name).entries[place]? =
      some (.repeated field number element packed))
    (hpackable : element.fieldType.isPackable = true) {pieces : List Piece}
    (hvalues : ∀ piece ∈ pieces, ∀ value ∈ piece.values, value.Conforms catalog holds element)
    {bytes bytes' : Bytes} {records : List UnknownField} (hsplits : SplitsInto bytes records)
    (hown : (Entry.repeated field number element packed).own records =
      pieces.flatMap (·.records catalog number element))
    (hothers : SplitsInto bytes' ((Entry.repeated field number element packed).others records))
    {config : ReaderConfig} {message : Message}
    (hdecode : catalog.decode name bytes' config = .ok message) :
    catalog.decode name bytes config = .ok (message.withContents (message.contents.set place
      (.repeated ((pieces.flatMap (·.values)).map fun value =>
        value.rebuild catalog .received element)))) := by
  have hplain : element.isPlain = true :=
    hoptions.schema name _ (List.mem_of_getElem? hentry)
  have hlength : ∀ record ∈ pieces.flatMap (·.records catalog number element), ∀ payload,
      record.value = .lengthDelimited payload → payload.length < addressSpace := by
    rw [← hown]
    exact fun record hrecord => hsplits.length_lt record (List.mem_filter.mp hrecord).1
  obtain ⟨runs, hruns, hflat⟩ := Piece.elements_flatMap hpackable hplain config.recursionLimit
    hvalues hlength
  rw [decode_eq_ok_iff hnumbered, message_eq, splitsInto_iff.mp hothers] at hdecode
  rw [decode_eq_ok_iff hnumbered, message_eq, splitsInto_iff.mp hsplits]
  refine (hnumbered.schema name).assemble_set hentry hdecode ?_
  rw [hown, Entry.assemble?, hruns, ← hflat]
  rfl

/-! ## The bounds of a run -/

/-- Bytes that begin a varint and do not end it. -/
def Varint.Unfinished (part : Bytes) : Prop :=
  part ≠ [] ∧ ∃ others value, others ≠ [] ∧ Denotes (part ++ others) value

theorem Varint.Unfinished.decode_eq {part : Bytes} (hpart : Unfinished part) :
    decode part = .error (.truncated (part.length + 1) part.length) := by
  obtain ⟨_, others, value, hothers, hdenotes⟩ := hpart
  refine (decode_cut (List.prefix_append part others) hdenotes).resolve_left fun hwhole => ?_
  have hcount := hwhole.1
  have hpositive := List.length_pos_iff.mpr hothers
  rw [List.length_append] at hcount
  omega

/-- Every word is a value of a type that is written as varints. -/
theorem ValueType.exists_interpret {type : ValueType} (hwire : type.wireType = .varint)
    (body : String → Bytes → Option Message) (word : UInt64) :
    ∃ value, type.interpret body (.varint word) = some value := by
  induction type with
  | scalar type => cases type <;> first | exact ⟨_, rfl⟩ | cases hwire
  | enumeration schema => exact ⟨_, rfl⟩
  | message name => cases hwire
  | option inner ih =>
      obtain ⟨value, hvalue⟩ := ih hwire
      exact ⟨.present value, congrArg (Option.map Value.present) hvalue⟩
  | converted converter wire ih =>
      obtain ⟨value, hvalue⟩ := ih hwire
      exact ⟨.reference .wire value, congrArg (Option.map (Value.reference .wire)) hvalue⟩

namespace Reader

variable {levels : Nat} {reader after : Reader}

theorem readScalar_error {type : ScalarType} (hwire : type.wireType = .varint)
    {error : DecodeError} (hread : readVarint64 reader = .error error after) :
    type.read reader = .error error after := by
  cases type with
  | bool | int64 | uint64 | sint64 => exact bind_error hread _
  | int32 | uint32 | sint32 => exact bind_error (bind_error hread _) _
  | _ => cases hwire

theorem readValue_error {type : ValueType} (hwire : type.wireType = .varint)
    {error : DecodeError} (hread : readVarint64 reader = .error error after)
    (body : String → ReaderM Message) : type.read body reader = .error error after := by
  induction type with
  | scalar type => exact bind_error (readScalar_error hwire hread) _
  | enumeration schema => exact bind_error (bind_error hread _) _
  | message name => cases hwire
  | option inner ih => exact bind_error (ih hwire) _
  | converted converter wire ih => exact bind_error (ih hwire) _

/-- A run that ends inside a varint fails for want of the next byte, whatever follows the run. -/
theorem readRun_unfinished {catalog : Catalog} (hnumbered : catalog.Numbered) {element : ValueType}
    (hwire : element.wireType = .varint) {words : List WrittenVarint} {part : Bytes}
    (hpart : Varint.Unfinished part) {fuel : Nat} (read : List Value) (hsound : Sound levels reader)
    (hwindow : reader.window = words.flatMap (·.bytes) ++ part)
    (hfuel : reader.window.length ≤ fuel) :
    ∃ elements after, readRun (element.read catalog.readBody) fuel read reader =
      ⟨elements, some (.truncated (part.length + 1) part.length), after⟩ := by
  have hlength := List.length_pos_iff.mpr hpart.1
  induction words generalizing fuel read reader with
  | nil =>
      rw [List.flatMap_nil, List.nil_append] at hwindow
      have hread : readVarint64 reader =
          .error (.truncated (part.length + 1) part.length) reader :=
        readVarint64_error hsound (hwindow ▸ hpart.decode_eq)
      rw [hwindow] at hfuel
      have hbefore := congrArg List.length hwindow
      rw [length_window hsound, remaining] at hbefore
      obtain ⟨fuel, rfl⟩ := Nat.exists_eq_add_of_le' (hlength.trans_le hfuel)
      refine ⟨read.reverse, reader, ?_⟩
      rw [readRun, if_pos (by omega), readValue_error hwire hread]
  | cons word words ih =>
      rw [List.flatMap_cons, List.append_assoc] at hwindow
      have hcut : Varint.cut? reader.window = some (word.value, words.flatMap (·.bytes) ++ part) :=
        Varint.cut_eq_some_iff.mpr ⟨word.bytes, hwindow, word.denotes⟩
      obtain ⟨value, hvalue⟩ :=
        ValueType.exists_interpret hwire (catalog.nested? levels) word.value
      have hanswers := follows_readValue (followsMessages_readBody hnumbered levels) element reader
        hsound
      rw [hwire, UnknownValue.cutAs_varint, hcut, Option.bind_some, hvalue] at hanswers
      obtain ⟨hrest, tag, hread⟩ := hanswers
      have hwindow' : _ = words.flatMap (·.bytes) ++ part := window_past hsound hrest tag
      have hpositive := (Varint.decode_count word.denotes).1
      have hbefore := congrArg List.length hwindow
      rw [List.length_append] at hbefore
      have hposition := length_window hsound
      rw [remaining] at hposition
      obtain ⟨fuel, rfl⟩ := Nat.exists_eq_add_of_le' (show 1 ≤ fuel by omega)
      rw [readRun, if_pos (by omega), hread]
      exact ih (value :: read) (hsound.past _ tag) hwindow' (by rw [hwindow']; omega)

/-- A reader that has read the tag of a packed run and is before the `length` of the run, behind
which come the bytes `rest`. -/
structure BeforeRun (number : UInt32) (length : Nat) (rest : Bytes) (reader : Reader) : Prop where
  position_le : reader.position ≤ reader.limit
  limit_le : reader.limit ≤ reader.buffer.size
  inRange : Tag.inRange number = true
  lastTag_eq : reader.lastTag = Tag.make number .len
  window_eq : ∃ front : WrittenVarint,
    front.value.toNat = length ∧ reader.window = front.bytes ++ rest

namespace BeforeRun

variable {α : Type} {number : UInt32} {length : Nat} {rest : Bytes}

theorem sound (hrun : BeforeRun number length rest reader) :
    Sound (reader.config.recursionLimit - reader.depth) reader :=
  ⟨hrun.position_le, hrun.limit_le, rfl⟩

/-- Elements are read from the run once its length is read and checked. -/
theorem readRepeated_eq (hrun : BeforeRun number length rest reader) {element : WireType}
    (helement : element ≠ .len) (body : ReaderM α) :
    ∃ tag, rest <:+ reader.window ∧ readRepeated element body reader = (do
      checkRun element length
      within length (readElements body)) (reader.past rest tag) := by
  obtain ⟨front, rfl, hwindow⟩ := hrun.window_eq
  have hcut : Varint.cut? reader.window = some (front.value, rest) :=
    Varint.cut_eq_some_iff.mpr ⟨front.bytes, hwindow, front.denotes⟩
  have hanswers := follows_readVarint64 reader hrun.sound
  rw [hcut] at hanswers
  obtain ⟨hrest, tag, hread⟩ := hanswers
  have hannounces : announcesRun element reader.lastTag = true := by
    have hdelimited := @lastTagIsDelimited_eq reader ⟨number, .len⟩ hrun.inRange hrun.lastTag_eq
    change (element != .len && reader.lastTagIsDelimited) = true
    rw [hdelimited, bne_iff_ne.mpr helement]
    rfl
  refine ⟨tag, hrest, ?_⟩
  have hlength : readLength reader = .ok front.value.toNat (reader.past rest tag) :=
    bind_ok hread _
  rw [Reader.readRepeated_eq]
  dsimp only
  rw [if_pos hannounces, bind_ok hlength]

/-- A run that elements of a fixed width cannot fill is refused. -/
theorem readRepeated_misfit (hrun : BeforeRun number length rest reader) {element : WireType}
    {width : Nat} (hwidth : element.fixedWidth? = some width) (hmisfit : length % width ≠ 0)
    (body : ReaderM α) :
    ∃ after, readRepeated element body reader =
      .error (.invalidPackedLength width length) after := by
  have helement : element ≠ .len := by
    rintro rfl
    cases hwidth
  obtain ⟨tag, -, hread⟩ := hrun.readRepeated_eq helement body
  refine ⟨reader.past rest tag, ?_⟩
  rw [hread, checkRun, hwidth]
  dsimp only
  rw [if_pos hmisfit]
  rfl

/-- A run of varints that ends inside one of them is refused for want of the next byte. -/
theorem readRepeated_unfinished {catalog : Catalog} (hnumbered : catalog.Numbered)
    {element : ValueType} (hwire : element.wireType = .varint) {words : List WrittenVarint}
    {part : Bytes} (hpart : Varint.Unfinished part) {run : Bytes}
    (hwords : run = words.flatMap (·.bytes) ++ part)
    (hrun : BeforeRun number run.length (run ++ rest) reader) :
    ∃ after, readRepeated element.wireType (element.read catalog.readBody) reader =
      .error (.truncated (part.length + 1) part.length) after := by
  have helement : element.wireType ≠ .len := by
    rw [hwire]
    decide
  obtain ⟨tag, hrest, hread⟩ := hrun.readRepeated_eq helement (element.read catalog.readBody)
  have hsound := hrun.sound.past (run ++ rest) tag
  have hwindow := window_past hrun.sound hrest tag
  have hfits : run.length ≤ (reader.past (run ++ rest) tag).window.length := by
    rw [hwindow, List.length_append]
    exact Nat.le_add_right _ _
  have hcheck : checkRun element.wireType run.length (reader.past (run ++ rest) tag) =
      .ok () (reader.past (run ++ rest) tag) := by
    rw [checkRun, hwire]
    rfl
  have hpush : pushLimit run.length (reader.past (run ++ rest) tag) =
      .ok () ((reader.past (run ++ rest) tag).entered run.length) := by
    rw [pushLimit_eq hsound, if_pos hfits]
  -- Inside the run its end is all that is seen; what comes behind it has no part in the outcome.
  have hinside : ((reader.past (run ++ rest) tag).entered run.length).window = run := by
    rw [window_entered hsound hfits, hwindow, List.take_left]
  obtain ⟨elements, after, hfails⟩ := readRun_unfinished hnumbered hwire hpart []
    (hsound.entered hfits) (hinside.trans hwords) (length_window_le (hsound.entered hfits))
  have helements : readElements (element.read catalog.readBody)
      ((reader.past (run ++ rest) tag).entered run.length) =
        .error (.truncated (part.length + 1) part.length) after := by
    rw [readElements, hfails, Occurrence.result]
  refine ⟨after, ?_⟩
  rw [hread, bind_ok hcheck, within, bind_ok hpush, bind_error helements]

end BeforeRun

end Reader

/-! ## Packing and the reader -/

namespace Catalog

open Reader

/-- Packing never matters to the reader. Types that differ only in their dialects and packed options
decode all bytes alike, and a message that one of them encodes is received by the other as by
itself, if a length can count the bytes. Elements that can be packed are joined from pieces of any
length, each a run or single records, with records of other entries between them. A run whose length
elements of a fixed width cannot fill is refused for its length, and one that ends inside a varint
is refused as truncated, whatever follows it. -/
theorem packing_immaterial {catalog : Catalog} (hnumbered : catalog.Numbered)
    (hoptions : catalog.OptionsSingular) :
    (∀ (other : Catalog) (name name' : String),
      other.withoutPacking = catalog.withoutPacking →
      (catalog.schema name).SameButPacking (other.schema name') →
      (∀ bytes config, other.decode name' bytes config = catalog.decode name bytes config) ∧
      ∀ (message : Message) (pass : Nat) (config : ReaderConfig), catalog.Defaulted →
        message.Conforms catalog (fun schema message => message.UnknownApart schema)
          (catalog.schema name) →
        message.CachesUnused catalog (some pass) (catalog.schema name) →
        message.depth catalog (catalog.schema name) ≤ config.recursionLimit →
        ((catalog.encode name pass message).answer.length < addressSpace →
          other.decode name' (catalog.encode name pass message).answer config =
            .ok (message.asReceived catalog (catalog.schema name))) ∧
        ((other.encode name' pass message).answer.length < addressSpace →
          catalog.decode name (other.encode name' pass message).answer config =
            .ok (message.asReceived catalog (catalog.schema name)))) ∧
    (∀ (name : String) (place : Nat) (field : String) (number : UInt32) (element : ValueType)
      (packed : Option Bool) (pieces : List Piece) (bytes bytes' : Bytes)
      (records : List UnknownField) (config : ReaderConfig) (message : Message),
      let entry : Entry := .repeated field number element packed
      (catalog.schema name).entries[place]? = some entry →
      element.fieldType.isPackable = true →
      (∀ piece ∈ pieces, ∀ value ∈ piece.values, value.Conforms catalog (fun _ _ => True) element) →
      SplitsInto bytes records →
      entry.own records = pieces.flatMap (·.records catalog number element) →
      SplitsInto bytes' (entry.others records) →
      catalog.decode name bytes' config = .ok message →
      catalog.decode name bytes config = .ok (message.withContents (message.contents.set place
        (.repeated ((pieces.flatMap (·.values)).map fun value =>
          value.rebuild catalog .received element))))) ∧
    (∀ (element : ValueType) (number : UInt32) (width length : Nat) (rest : Bytes) (reader : Reader),
      BeforeRun number length rest reader → element.wireType.fixedWidth? = some width →
      length % width ≠ 0 →
      ∃ after, readRepeated element.wireType (element.read catalog.readBody) reader =
        .error (.invalidPackedLength width length) after) ∧
    ∀ (element : ValueType) (number : UInt32) (words : List WrittenVarint)
      (part run rest : Bytes) (reader : Reader), element.wireType = .varint →
      Varint.Unfinished part → run = words.flatMap (·.bytes) ++ part →
      BeforeRun number run.length (run ++ rest) reader →
      ∃ after, readRepeated element.wireType (element.read catalog.readBody) reader =
        .error (.truncated (part.length + 1) part.length) after := by
  refine ⟨?_, ?_, ?_, ?_⟩
  · intro other name name' hother hsame
    refine ⟨decode_of_sameButPacking hother hsame, ?_⟩
    intro message pass config hdefaulted hmessage hunused hdepth
    exact ⟨decode_repacked hother hsame hnumbered hoptions hdefaulted hmessage hunused hdepth,
      decode_repacked_back hother hsame hnumbered hoptions hdefaulted hmessage hunused hdepth⟩
  · intro name place field number element packed pieces bytes bytes' records config message entry
      hentry hpackable hvalues hsplits hown hothers hdecode
    exact decode_pieces hnumbered hoptions hentry hpackable hvalues hsplits hown hothers hdecode
  · intro element number width length rest reader hrun hwidth hmisfit
    exact hrun.readRepeated_misfit hwidth hmisfit _
  · intro element number words part run rest reader hwire hpart hwords hrun
    exact hrun.readRepeated_unfinished hnumbered hwire hpart hwords

/-- Numbers written one by one and read by a type that packs them, and the other way round; the same
numbers cut into an empty run, a record and a run around a record of another field; a run of five
bytes for words of four; and a run that ends inside a number of which the last byte follows. -/
theorem legacy_packing_immaterial :
    let legacy : Catalog := ⟨[("Legacy", Samples.legacy)]⟩
    let repacked : Catalog := ⟨[("Legacy", { Samples.legacy with
      dialect := .proto3
      entries := [Samples.repeated "ids" 1 (.scalar .uint32),
        .repeated "packed_ids" 2 (.scalar .uint32) (some false),
        Samples.repeated "names" 3 (.scalar .string),
        .repeated "checksums" 4 (.scalar .fixed32) none] })]⟩
    let id (number : UInt32) : Value := .scalar (.uint32 number)
    let message : Message := .mk [.repeated [id 1, id 300], .repeated [], .repeated [],
      .repeated [.scalar (.fixed32 7)]] .empty .empty
    let before (number : UInt32) (bytes : Bytes) : Reader :=
      { Reader.ofBytes bytes {} with lastTag := Tag.make number .len }
    (legacy.encode "Legacy" 0 message).answer ≠ (repacked.encode "Legacy" 0 message).answer ∧
      repacked.decode "Legacy" (legacy.encode "Legacy" 0 message).answer {} = .ok message ∧
      legacy.decode "Legacy" (repacked.encode "Legacy" 0 message).answer {} = .ok message ∧
      legacy.decode "Legacy" [10, 0, 8, 1, 37, 7, 0, 0, 0, 10, 2, 172, 2] {} = .ok message ∧
      (∃ after, readRepeated .i32 (ValueType.read legacy.readBody (.scalar .fixed32))
        (before 4 [5, 7, 0, 0, 0, 7]) = .error (.invalidPackedLength 4 5) after) ∧
      ∃ after, readRepeated .varint (ValueType.read legacy.readBody (.scalar .uint32))
        (before 1 [2, 1, 172, 2]) = .error (.truncated 2 1) after := by
  intro legacy repacked id message before
  have hconforms : ∀ holds : MessageSchema → Message → Prop, holds Samples.legacy message →
      message.Conforms legacy holds (legacy.schema "Legacy") := by
    intro holds hmessage
    exact .mk _ _ _ _ hmessage
      (.cons _ _ _ _ (.repeated _ _ _ _ _ (scalars_conform [.uint32 1, .uint32 300] (by decide)))
        (.cons _ _ _ _ (.repeated _ _ _ _ _ (scalars_conform [] (by decide)))
          (.cons _ _ _ _ (.repeated _ _ _ _ _ (scalars_conform [] (by decide)))
            (.cons _ _ _ _ (.repeated _ _ _ _ _ (scalars_conform [.fixed32 7] (by decide)))
              .nil))))
  obtain ⟨hpacking, hpieces, hmisfit, hunfinished⟩ :=
    @packing_immaterial legacy (by decide) (by decide)
  obtain ⟨hforth, hback⟩ := (hpacking repacked "Legacy" "Legacy" rfl ⟨rfl, rfl⟩).2 message 0 {}
    (by decide) (hconforms _ unknownApart_empty) (hconforms _ rfl) (by decide)
  refine ⟨by decide, hforth (by decide), hback (by decide), ?_, ?_, ?_⟩
  · have hothers : legacy.decode "Legacy" [37, 7, 0, 0, 0] {} = .ok
        (.mk [.repeated [], .repeated [], .repeated [], .repeated [.scalar (.fixed32 7)]]
          .empty .empty) := by
      cbv
    refine hpieces "Legacy" 0 "ids" 1 (.scalar .uint32) none
      [⟨[], true⟩, ⟨[id 1], false⟩, ⟨[id 300], true⟩] _ _
      [⟨1, .lengthDelimited []⟩, ⟨1, .varint 1⟩, ⟨4, .fixed32 7⟩, ⟨1, .lengthDelimited [172, 2]⟩]
      {} _ rfl rfl ?_ (splitsInto_iff.mpr (by decide)) (by decide)
      (splitsInto_iff.mpr (by decide)) hothers
    intro piece hpiece
    simp only [List.mem_cons, List.not_mem_nil, or_false] at hpiece
    rcases hpiece with rfl | rfl | rfl
    · exact scalars_conform [] (by decide)
    · exact scalars_conform [.uint32 1] (by decide)
    · exact scalars_conform [.uint32 300] (by decide)
  · exact hmisfit (.scalar .fixed32) 4 4 5 [7, 0, 0, 0, 7] _
      ⟨by decide, by decide, by decide, rfl, ⟨⟨[5], 5, rfl⟩, rfl, by decide⟩⟩ rfl (by decide)
  · exact hunfinished (.scalar .uint32) 1 [⟨[1], 1, rfl⟩] [172] [1, 172] [2] _ rfl
      ⟨by decide, [2], 300, by decide, rfl⟩ rfl
      ⟨by decide, by decide, by decide, rfl, ⟨⟨[2], 2, rfl⟩, rfl, by decide⟩⟩

end Catalog

end ProtoWire
