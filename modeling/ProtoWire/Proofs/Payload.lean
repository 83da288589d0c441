import ProtoWire.Proofs.Window
import ProtoWire.Message.Decode

/-! # What payloads mean

A payload that is framed is a value of a field type or it is not, whatever stands around it. Every
typed read frames a payload by the wire type of its type and gives the value that the payload is.
-/

namespace ProtoWire

/-! ## Framed payloads
-/

namespace UnknownValue

variable {α : Type}

/-- The payload in front of a byte string, interpreted, and the bytes after it. -/
def cutAs (wireType : WireType) (interpret : UnknownValue → Option α) (bytes : Bytes) :
    Option (α × Bytes) :=
  (cut? wireType bytes).bind fun found => (interpret found.1).map (·, found.2)

variable {interpret : UnknownValue → Option α}

theorem cutAs_varint (bytes : Bytes) :
    cutAs .varint interpret bytes =
      (Varint.cut? bytes).bind fun found => (interpret (.varint found.1)).map (·, found.2) := by
  simp only [cutAs, cut?, Option.bind_map]
  rfl

theorem cutAs_fixed64 (bytes : Bytes) :
    cutAs .i64 interpret bytes = (Bytes.cut? 8 bytes).bind fun found =>
      (interpret (.fixed64 (UInt64.ofNat (Bytes.ofLittleEndian found.1)))).map (·, found.2) := by
  simp only [cutAs, cut?, Option.bind_map]
  rfl

theorem cutAs_fixed32 (bytes : Bytes) :
    cutAs .i32 interpret bytes = (Bytes.cut? 4 bytes).bind fun found =>
      (interpret (.fixed32 (UInt32.ofNat (Bytes.ofLittleEndian found.1)))).map (·, found.2) := by
  simp only [cutAs, cut?, Option.bind_map]
  rfl

theorem cutAs_delimited (bytes : Bytes) :
    cutAs .len interpret bytes = (Reader.cutDelimited? bytes).bind fun found =>
      (interpret (.lengthDelimited found.1)).map (·, found.2) := by
  simp only [cutAs, cut?, Reader.cutDelimited?, Option.bind_eq_bind, Option.bind_assoc,
    Option.bind_map]
  rfl

theorem cutAs_congr {wireType : WireType} {interpret' : UnknownValue → Option α}
    (h : ∀ payload, payload.wireType = wireType → interpret payload = interpret' payload)
    (bytes : Bytes) : cutAs wireType interpret bytes = cutAs wireType interpret' bytes := by
  unfold cutAs
  cases hcut : cut? wireType bytes with
  | none => rfl
  | some found => rw [Option.bind_some, Option.bind_some, h _ (cut_eq_some_iff.mp hcut).1]

theorem cutAs_map {β : Type} (wireType : WireType) (change : α → β) (bytes : Bytes) :
    (cutAs wireType interpret bytes).map (fun found => (change found.1, found.2)) =
      cutAs wireType (fun payload => (interpret payload).map change) bytes := by
  simp only [cutAs, Option.map_bind, Function.comp_def, Option.map_map]

theorem cuts_cutAs (wireType : WireType) (interpret : UnknownValue → Option α) :
    Cuts (cutAs wireType interpret) := by
  intro bytes value rest h
  simp only [cutAs, Option.bind_eq_some_iff, Option.map_eq_some_iff, Prod.mk.injEq] at h
  obtain ⟨⟨payload, rest'⟩, hcut, value', _, rfl, rfl⟩ := h
  exact cuts wireType _ _ _ hcut

/-- Splitting into values is splitting into payloads and interpreting each. -/
theorem split_cutAs (wireType : WireType) (interpret : UnknownValue → Option α) (bytes : Bytes) :
    Bytes.split? (cutAs wireType interpret) bytes =
      (Bytes.split? (cut? wireType) bytes).bind fun payloads => payloads.mapM interpret := by
  -- Both sides recur on what is left behind the first payload, which is shorter, not a tail.
  induction hlength : bytes.length using Nat.strong_induction_on generalizing bytes with
  | _ length ih =>
      by_cases hbytes : bytes = []
      · subst hbytes
        rfl
      · rw [Bytes.split_of_ne_nil (cuts_cutAs wireType interpret) hbytes,
          Bytes.split_of_ne_nil (cuts wireType) hbytes, cutAs]
        cases hcut : cut? wireType bytes with
        | none => rfl
        | some found =>
            obtain ⟨front, hfront, heq⟩ := cuts wireType _ _ _ hcut
            have hshort := congrArg List.length heq
            have hpositive := List.length_pos_iff.mpr hfront
            rw [List.length_append] at hshort
            have hrest := ih found.2.length (by omega) found.2 rfl
            simp only [Option.bind_some, Option.bind_map, Function.comp_def, List.mapM_cons,
              Option.bind_eq_bind]
            cases interpret found.1 with
            | none => simp only [Option.bind_none, Option.bind_fun_none]
            | some value =>
                simp only [Option.bind_some, hrest]
                cases Bytes.split? (cut? wireType) found.2 with
                | none => rfl
                | some payloads => exact Option.map_eq_bind

/-- Payloads of a fixed width fill the bytes they are split from. -/
theorem length_of_split {wireType : WireType} {width : Nat}
    (hwidth : wireType.fixedWidth? = some width) {bytes : Bytes} {payloads : List UnknownValue}
    (hsplit : Bytes.split? (cut? wireType) bytes = some payloads) :
    bytes.length = width * payloads.length := by
  have hfixed : ∀ {front : Bytes} {value : UnknownValue}, value.wireType = wireType →
      value.Frames front → front.length = width := by
    rintro front value rfl hframes
    cases hframes with
    | varint => cases hwidth
    | fixed32 _ hlength =>
        cases hwidth
        exact hlength
    | fixed64 _ hlength =>
        cases hwidth
        exact hlength
    | lengthDelimited => cases hwidth
  induction payloads generalizing bytes with
  | nil =>
      by_cases hbytes : bytes = []
      · rw [hbytes]
        rfl
      · rw [Bytes.split_of_ne_nil (cuts wireType) hbytes] at hsplit
        simp only [Option.bind_eq_some_iff, Option.map_eq_some_iff] at hsplit
        obtain ⟨_, _, _, _, hcons⟩ := hsplit
        cases hcons
  | cons payload payloads ih =>
      have hbytes : bytes ≠ [] := by
        rintro rfl
        cases hsplit
      rw [Bytes.split_of_ne_nil (cuts wireType) hbytes] at hsplit
      simp only [Option.bind_eq_some_iff, Option.map_eq_some_iff] at hsplit
      obtain ⟨⟨value, rest⟩, hcut, payloads', hrest, hcons⟩ := hsplit
      cases hcons
      obtain ⟨hwire, front, rfl, hframes⟩ := cut_eq_some_iff.mp hcut
      rw [List.length_append, hfixed hwire hframes, ih hrest, List.length_cons, Nat.mul_succ,
        Nat.add_comm]

end UnknownValue

/-! ## Scalars -/

namespace ScalarType

/-- The value of a scalar type that a payload is. Any varint but 0 is true. -/
def interpret : ScalarType → UnknownValue → Option Scalar
  | .bool, .varint word => some (.bool (word != 0))
  | .double, .fixed64 word => some (.double word)
  | .float, .fixed32 word => some (.float word)
  | .int32, .varint word => some (.int32 word.toUInt32.toInt32)
  | .int64, .varint word => some (.int64 word.toInt64)
  | .uint32, .varint word => some (.uint32 word.toUInt32)
  | .uint64, .varint word => some (.uint64 word)
  | .sint32, .varint word => some (.sint32 (Varint.unzigzag32 word.toUInt32))
  | .sint64, .varint word => some (.sint64 (Varint.unzigzag64 word))
  | .fixed32, .fixed32 word => some (.fixed32 word)
  | .fixed64, .fixed64 word => some (.fixed64 word)
  | .sfixed32, .fixed32 word => some (.sfixed32 word.toInt32)
  | .sfixed64, .fixed64 word => some (.sfixed64 word.toInt64)
  | .string, .lengthDelimited payload => (String.fromUTF8? ⟨payload.toArray⟩).map .string
  | .bytes, .lengthDelimited payload => some (.bytes payload)
  | _, _ => none

end ScalarType

namespace Reader

variable {levels : Nat}

theorem Answers.mapAs {α β : Type} {read : ReaderM α} {wireType : WireType}
    {interpret : UnknownValue → Option α} {reader : Reader}
    (hread : Answers read reader (UnknownValue.cutAs wireType interpret reader.window))
    (change : α → β) :
    Answers (read >>= fun value => Pure.pure (change value)) reader
      (UnknownValue.cutAs wireType (fun payload => (interpret payload).map change)
        reader.window) := by
  rw [← UnknownValue.cutAs_map]
  exact hread.map change

theorem Follows.mapAs {α β : Type} {read : ReaderM α} {wireType : WireType}
    {interpret : UnknownValue → Option α}
    (hread : Follows levels read (UnknownValue.cutAs wireType interpret)) (change : α → β) :
    Follows levels (read >>= fun value => Pure.pure (change value))
      (UnknownValue.cutAs wireType fun payload => (interpret payload).map change) :=
  fun reader hsound => (hread reader hsound).mapAs change

/-- Passing over a payload takes it as framed and gives what was there before. -/
theorem follows_skipField_as {α : Type} {tag : UInt32} {key : FieldKey}
    (hkey : Tag.split tag = .ok key) (value : α) :
    Follows levels (skipField tag >>= fun _ => Pure.pure value)
      (UnknownValue.cutAs key.wireType fun _ => some value) := by
  refine ((follows_skipField hkey).map fun _ => value).congr fun bytes => ?_
  rw [Option.map_map, Option.map_eq_bind]
  rfl

/-- Capturing a payload takes it as framed, whatever it holds. -/
theorem follows_readUnknown_as {tag : UInt32} {key : FieldKey} (hkey : Tag.split tag = .ok key) :
    Follows levels (readUnknown tag)
      (UnknownValue.cutAs key.wireType fun payload => some ⟨key.number, payload⟩) := by
  refine (follows_readUnknown hkey).congr fun bytes => ?_
  rw [Option.map_eq_bind]
  rfl

theorem follows_readFixed32 : Follows levels readFixed32 fun bytes =>
    (Bytes.cut? 4 bytes).map fun found =>
      (UInt32.ofNat (Bytes.ofLittleEndian found.1), found.2) :=
  (follows_readExactly 4).map _

theorem follows_readFixed64 : Follows levels readFixed64 fun bytes =>
    (Bytes.cut? 8 bytes).map fun found =>
      (UInt64.ofNat (Bytes.ofLittleEndian found.1), found.2) :=
  (follows_readExactly 8).map _

theorem follows_text (payload : Bytes) :
    Follows levels
      (match String.fromUTF8? ⟨payload.toArray⟩ with
        | some text => pure text
        | none => throw .invalidUtf8 : ReaderM String)
      fun rest => (String.fromUTF8? ⟨payload.toArray⟩).map (·, rest) := by
  intro reader hsound
  cases String.fromUTF8? ⟨payload.toArray⟩ with
  | none => exact ⟨.invalidUtf8, reader, rfl⟩
  | some text => exact Follows.pure text reader hsound

theorem follows_readString : Follows levels readString fun bytes =>
    (cutDelimited? bytes).bind fun found =>
      (String.fromUTF8? ⟨found.1.toArray⟩).map (·, found.2) :=
  follows_readBytes.bind follows_text

theorem follows_readScalar (type : ScalarType) :
    Follows levels type.read (UnknownValue.cutAs type.wireType type.interpret) := by
  cases type with
  | bool | int64 | uint64 | sint64 =>
      refine (follows_readVarint64.map _).congr fun bytes => ?_
      rw [ScalarType.wireType, UnknownValue.cutAs_varint, Option.map_eq_bind]
      rfl
  | int32 | uint32 | sint32 =>
      refine (follows_readVarint32.map _).congr fun bytes => ?_
      rw [ScalarType.wireType, UnknownValue.cutAs_varint, Option.map_map, Option.map_eq_bind]
      rfl
  | double | fixed64 | sfixed64 =>
      refine (follows_readFixed64.map _).congr fun bytes => ?_
      rw [ScalarType.wireType, UnknownValue.cutAs_fixed64, Option.map_map, Option.map_eq_bind]
      rfl
  | float | fixed32 | sfixed32 =>
      refine (follows_readFixed32.map _).congr fun bytes => ?_
      rw [ScalarType.wireType, UnknownValue.cutAs_fixed32, Option.map_map, Option.map_eq_bind]
      rfl
  | string =>
      refine (follows_readString.map _).congr fun bytes => ?_
      rw [ScalarType.wireType, UnknownValue.cutAs_delimited, Option.map_bind]
      congr 1
      funext found
      simp only [Function.comp_apply, ScalarType.interpret, Option.map_map]
      rfl
  | bytes =>
      refine (follows_readBytes.map _).congr fun bytes => ?_
      rw [ScalarType.wireType, UnknownValue.cutAs_delimited, Option.map_eq_bind]
      rfl

end Reader

/-! ## Values -/

namespace ValueType

/-- The value of a value type that a payload is, given what the payloads of message types are. -/
def interpret (body : String → Bytes → Option Message) : ValueType → UnknownValue → Option Value
  | .scalar type, payload => (type.interpret payload).map .scalar
  | .enumeration schema, .varint word =>
      some (.enumeration (schema.ofNumber word.toUInt32.toInt32))
  | .enumeration _, _ => none
  | .message name, .lengthDelimited payload => (body name payload).map .message
  | .message _, _ => none
  | .option inner, payload => (inner.interpret body payload).map .present
  | .converted _ wire, payload => (wire.interpret body payload).map (.reference .wire)

/-- The elements that one record of a repeated field holds: those of a packed run when elements can
be packed and the record is length-delimited, otherwise one. -/
def elements? (body : String → Bytes → Option Message) (element : ValueType) :
    UnknownValue → Option (List Value)
  | .lengthDelimited payload =>
      if element.wireType = .len then
        (element.interpret body (.lengthDelimited payload)).map fun value => [value]
      else do
        let payloads ← Bytes.split? (UnknownValue.cut? element.wireType) payload
        payloads.mapM (element.interpret body)
  | payload => (element.interpret body payload).map fun value => [value]

/-- A record framed as the elements are holds one element. -/
theorem elements_single {body : String → Bytes → Option Message} {element : ValueType}
    {payload : UnknownValue} (hwire : payload.wireType = element.wireType) :
    element.elements? body payload =
      (element.interpret body payload).map fun value => [value] := by
  cases payload with
  | varint | fixed32 | fixed64 => rfl
  | lengthDelimited payload => exact if_pos hwire.symm

/-- A length-delimited record of elements that are framed otherwise is a packed run. -/
theorem elements_packed {body : String → Bytes → Option Message} {element : ValueType}
    (helement : element.wireType ≠ .len) (payload : Bytes) :
    element.elements? body (.lengthDelimited payload) =
      (Bytes.split? (UnknownValue.cut? element.wireType) payload).bind fun payloads =>
        payloads.mapM (element.interpret body) :=
  if_neg helement

end ValueType

namespace Reader

variable {levels : Nat}

/-- Reading the messages behind a length gives what their payloads are. -/
def FollowsMessages (levels : Nat) (body : String → ReaderM Message)
    (inner : String → Bytes → Option Message) : Prop :=
  ∀ name, Follows levels (readMessage (body name)) fun bytes =>
    (cutDelimited? bytes).bind fun found => (inner name found.1).map (·, found.2)

variable {body : String → ReaderM Message} {inner : String → Bytes → Option Message}

theorem follows_readValue (hbody : FollowsMessages levels body inner) (type : ValueType) :
    Follows levels (type.read body)
      (UnknownValue.cutAs type.wireType (type.interpret inner)) := by
  induction type with
  | scalar type => exact (follows_readScalar type).mapAs Value.scalar
  | enumeration schema =>
      refine (follows_readVarint32.map _).congr fun bytes => ?_
      rw [ValueType.wireType, UnknownValue.cutAs_varint, Option.map_map, Option.map_eq_bind]
      rfl
  | message name =>
      refine ((hbody name).map _).congr fun bytes => ?_
      rw [ValueType.wireType, UnknownValue.cutAs_delimited, Option.map_bind]
      simp only [Function.comp_def, Option.map_map, ValueType.interpret]
  | option type ih => exact ih.mapAs Value.present
  | converted converter type ih => exact ih.mapAs (Value.reference .wire)

theorem answers_readElements (hbody : FollowsMessages levels body inner) {element : ValueType}
    {key : FieldKey} {reader : Reader} (hsound : Sound levels reader)
    (hkey : Tag.inRange key.number = true)
    (htag : reader.lastTag = Tag.make key.number key.wireType)
    (hwire : key.wireType = element.wireType ∨ key.wireType = .len) :
    Answers (readRepeated element.wireType (element.read body)) reader
      (UnknownValue.cutAs key.wireType (element.elements? inner) reader.window) := by
  have hfollows := follows_readValue hbody element
  have hdelimited := lastTagIsDelimited_eq hkey htag
  by_cases hsame : key.wireType = element.wireType
  · have hsingle : element.wireType = .len ∨ reader.lastTagIsDelimited = false := by
      rw [hdelimited, hsame, beq_eq_false_iff_ne]
      exact eq_or_ne _ _
    have hanswers := answers_readRepeated_single hfollows hsound hsingle
    rw [hsame]
    convert hanswers using 1
    unfold UnknownValue.cutAs
    cases hcut : UnknownValue.cut? element.wireType reader.window with
    | none => rfl
    | some found =>
        have hpayload := (UnknownValue.cut_eq_some_iff.mp hcut).1
        simp only [Option.bind_some, ValueType.elements_single hpayload, Option.map_map]
        rfl
  -- The other tag announces a packed run, which elements of a fixed width have to fill.
  · have hlen : key.wireType = .len := hwire.resolve_left hsame
    have helement : element.wireType ≠ .len := by
      intro h
      exact hsame (hlen.trans h.symm)
    have hfills : ∀ payload values, Bytes.split? (UnknownValue.cutAs element.wireType
        (element.interpret inner)) payload = some values →
        fillsRun element.wireType payload.length := by
      intro payload values hsplit width hwidth
      rw [UnknownValue.split_cutAs, Option.bind_eq_some_iff] at hsplit
      obtain ⟨payloads, hsplit, _⟩ := hsplit
      rw [UnknownValue.length_of_split hwidth hsplit, Nat.mul_mod_right]
    have hanswers := answers_readRepeated_packed (UnknownValue.cuts_cutAs _ _) hfollows hfills
      hsound helement (by rw [hdelimited, hlen]; rfl)
    rw [hlen]
    convert hanswers using 1
    have hcut := @UnknownValue.cutAs_delimited _ (element.elements? inner) reader.window
    simp only [ValueType.elements_packed helement, ← UnknownValue.split_cutAs] at hcut
    exact hcut

end Reader

/-! ## Map entries -/

/-- The entry of a map that a payload is: of the records in it, the last key and the last value
count, and one that is missing takes its default. -/
def mapEntryOf (body : String → Bytes → Option Message) (key : ScalarType) (value : ValueType)
    (default : Value) : UnknownValue → Option (Scalar × Value)
  | .lengthDelimited payload => do
      let records ← Bytes.split? UnknownField.cut? payload
      let keys ← (records.filter (·.tag == mapKeyTag key)).mapM fun record =>
        key.interpret record.value
      let values ← (records.filter (·.tag == mapValueTag value)).mapM fun record =>
        value.interpret body record.value
      return (keys.getLast?.getD key.zero, values.getLast?.getD default)
  | _ => none

/-- The key and the value found so far, after one more record. -/
def mapStep (body : String → Bytes → Option Message) (key : ScalarType) (value : ValueType)
    (found : Option Scalar × Option Value) (record : UnknownField) :
    Option (Option Scalar × Option Value) :=
  if record.tag = mapKeyTag key then
    (key.interpret record.value).map fun scalar => (some scalar, found.2)
  else if record.tag = mapValueTag value then
    (value.interpret body record.value).map fun value => (found.1, some value)
  else some found

theorem mapKeyTag_ne_mapValueTag (key : ScalarType) (value : ValueType) :
    mapKeyTag key ≠ mapValueTag value := by
  intro h
  exact absurd (Tag.make_injective (by decide) (by decide) h).1 (by decide)

theorem getLast_cons_or {α : Type} (first : α) (others : List α) (held : Option α) :
    (first :: others).getLast?.or held = others.getLast?.or (some first) := by
  rw [List.getLast?_cons]
  cases others.getLast? <;> rfl

/-- Going through the records of a map entry finds the last key and the last value. -/
theorem foldlM_mapStep (body : String → Bytes → Option Message) (key : ScalarType)
    (value : ValueType) (records : List UnknownField) (found : Option Scalar × Option Value) :
    records.foldlM (mapStep body key value) found = (do
      let keys ← (records.filter (·.tag == mapKeyTag key)).mapM fun record =>
        key.interpret record.value
      let values ← (records.filter (·.tag == mapValueTag value)).mapM fun record =>
        value.interpret body record.value
      return (keys.getLast?.or found.1, values.getLast?.or found.2)) := by
  induction records generalizing found with
  | nil => rfl
  | cons record records ih =>
      rw [List.foldlM_cons, mapStep]
      by_cases hkey : record.tag = mapKeyTag key
      · have hvalue : ¬ record.tag = mapValueTag value := by
          rw [hkey]
          exact mapKeyTag_ne_mapValueTag key value
        rw [if_pos hkey, List.filter_cons_of_pos (by simpa using hkey),
          List.filter_cons_of_neg (by simpa using hvalue), List.mapM_cons]
        cases key.interpret record.value with
        | none => rfl
        | some scalar =>
            simp only [Option.map_some, Option.bind_eq_bind, Option.bind_some, ih,
              Option.bind_assoc, Option.pure_def, getLast_cons_or]
      · rw [if_neg hkey, List.filter_cons_of_neg (by simpa using hkey)]
        by_cases hvalue : record.tag = mapValueTag value
        · rw [if_pos hvalue, List.filter_cons_of_pos (by simpa using hvalue), List.mapM_cons]
          cases value.interpret body record.value with
          | none => simp only [Option.map_none, Option.bind_eq_bind, Option.bind_none,
              Option.bind_fun_none]
          | some scalar =>
              simp only [Option.map_some, Option.bind_eq_bind, Option.bind_some, ih,
                Option.bind_assoc, Option.pure_def, getLast_cons_or]
        · rw [if_neg hvalue, List.filter_cons_of_neg (by simpa using hvalue)]
          exact ih found

theorem mapEntry_eq_fold (body : String → Bytes → Option Message) (key : ScalarType)
    (value : ValueType) (default : Value) (payload : Bytes) :
    mapEntryOf body key value default (.lengthDelimited payload) =
      (Reader.foldRecords? (mapStep body key value) (none, none) payload).map fun found =>
        (found.1.getD key.zero, found.2.getD default) := by
  simp only [mapEntryOf, Reader.foldRecords?, foldlM_mapStep, Option.or_none, Option.map_bind,
    Option.bind_eq_bind, Function.comp_def, Option.pure_def, Option.map_some]

namespace Reader

variable {levels : Nat} {body : String → ReaderM Message} {inner : String → Bytes → Option Message}

theorem followsRecord_map (hbody : FollowsMessages levels body inner) {key : ScalarType}
    {value : ValueType} :
    FollowsRecord levels (readMapRecord body key value) (mapStep inner key value) := by
  intro announced found reader hsound hnumber htag
  change Answers _ reader (UnknownValue.cutAs announced.wireType
    (fun payload => mapStep inner key value found ⟨announced.number, payload⟩) reader.window)
  have htag : ∀ payload : UnknownValue, payload.wireType = announced.wireType →
      UnknownField.tag ⟨announced.number, payload⟩ =
        Tag.make announced.number announced.wireType := by
    intro payload hpayload
    rw [UnknownField.tag, hpayload]
  unfold readMapRecord
  by_cases hkey : Tag.make announced.number announced.wireType = mapKeyTag key
  · have hwire := (Tag.make_injective hnumber (by decide) hkey).2
    rw [if_pos hkey, UnknownValue.cutAs_congr fun payload hpayload => by
      rw [mapStep, htag payload hpayload, if_pos hkey], hwire]
    exact (follows_readScalar key).mapAs (fun scalar => (some scalar, found.2)) reader hsound
  · rw [if_neg hkey]
    by_cases hvalue : Tag.make announced.number announced.wireType = mapValueTag value
    · have hwire := (Tag.make_injective hnumber (by decide) hvalue).2
      rw [if_pos hvalue, UnknownValue.cutAs_congr fun payload hpayload => by
        rw [mapStep, htag payload hpayload, if_neg hkey, if_pos hvalue], hwire]
      exact (follows_readValue hbody value).mapAs (fun value => (found.1, some value)) reader hsound
    · have hsplit : Tag.split (Tag.make announced.number announced.wireType) = .ok announced :=
        Tag.split_eq_ok_iff.mpr ⟨hnumber, rfl⟩
      rw [if_neg hvalue, UnknownValue.cutAs_congr fun payload hpayload => by
        rw [mapStep, htag payload hpayload, if_neg hkey, if_neg hvalue]]
      exact follows_skipField_as hsplit found reader hsound

theorem follows_readMapEntry (hbody : FollowsMessages levels body inner) (key : ScalarType)
    (value : ValueType) (default : Value) :
    Follows levels (readMapEntry body key value default)
      (UnknownValue.cutAs .len (mapEntryOf inner key value default)) := by
  have hrecords : Follows levels (readToLimit (readMapRecord body key value) (none, none)) _ :=
    follows_readToLimit (followsRecord_map hbody) (none, none)
  have hentry : ∀ length, Follows levels
      (within length (readToLimit (readMapRecord body key value) (none, none)) >>= fun found =>
        pure (found.1.getD key.zero, found.2.getD default)) _ := fun length =>
    (follows_within hrecords length).map _
  have hread : readMapEntry body key value default = readLength >>= fun length =>
      within length (readToLimit (readMapRecord body key value) (none, none)) >>= fun found =>
        pure (found.1.getD key.zero, found.2.getD default) := by
    simp only [readMapEntry, within, bind_assoc, pure_bind]
  rw [hread]
  refine ((follows_readVarint64.map UInt64.toNat).bind hentry).congr fun bytes => ?_
  rw [UnknownValue.cutAs_delimited, cutDelimited?]
  simp only [mapEntry_eq_fold, Option.bind_map, Option.bind_assoc, Option.map_bind,
    Function.comp_def, Option.map_map]

end Reader

end ProtoWire
