import ProtoWire.Proofs.Framing

/-! # Records as they are written

The same number may be written as a varint in several ways: in more bytes than it needs, or with
bits that are dropped when it is read. A record that is written back has every varint in the one way
of the encoder, which is never longer than the way it was written in.
-/

namespace ProtoWire

/-! ## Shortest varints -/

namespace Varint

theorem decodeGroups_lt {groups : Nat} {bytes : Bytes} {n count : Nat}
    (hdecode : decodeGroups? groups bytes = some (n, count)) : n < 128 ^ count := by
  induction groups generalizing bytes n count with
  | zero => cases hdecode
  | succ groups ih =>
      cases bytes with
      | nil => cases hdecode
      | cons byte rest =>
          rw [decodeGroups?] at hdecode
          split at hdecode
          next hlast =>
            cases hdecode
            rw [pow_one]
            exact (byte_lt_iff byte).mp hlast
          next =>
            obtain ⟨⟨n', count'⟩, hrest, hpair⟩ := Option.map_eq_some_iff.mp hdecode
            cases hpair
            have hlt := ih hrest
            rw [pow_succ]
            omega

theorem length_encodeGroups_le {more n count : Nat} (hcount : 0 < count) (hn : n < 128 ^ count) :
    (encodeGroups more n).length ≤ count := by
  induction more generalizing n count with
  | zero => exact hcount
  | succ more ih =>
      rw [encodeGroups]
      split
      next => exact hcount
      next hlarge =>
        obtain ⟨others, rfl⟩ := Nat.exists_eq_succ_of_ne_zero hcount.ne'
        -- A number that does not fit into one group takes at least two.
        have hothers : 0 < others := by
          refine Nat.pos_of_ne_zero fun hzero => hlarge ?_
          rw [hzero] at hn
          exact hn
        have hdiv : n / 128 < 128 ^ others := by
          rw [Nat.div_lt_iff_lt_mul (by decide), ← pow_succ]
          exact hn
        exact Nat.succ_le_succ (ih hothers hdiv)

/-- No varint of a word is shorter than the one it is encoded as. -/
theorem length_encode_le {bytes : Bytes} {value : UInt64} (hdenotes : Denotes bytes value) :
    (encode value).length ≤ bytes.length := by
  obtain ⟨n, hgroups, rfl⟩ := decode_eq_ok_iff.mp hdenotes
  have hvalue : (UInt64.ofNat n).toNat ≤ n := by
    rw [UInt64.toNat_ofNat']
    exact Nat.mod_le _ _
  exact length_encodeGroups_le (decodeGroups_count hgroups).1
    (hvalue.trans_lt (decodeGroups_lt hgroups))

end Varint

/-! ## Records -/

/-- A varint as it is written, in whatever number of bytes. -/
structure WrittenVarint where
  bytes : Bytes
  value : UInt64
  denotes : Varint.Denotes bytes value

/-- Written as the encoder writes the value. -/
def WrittenVarint.IsCanonical (varint : WrittenVarint) : Prop :=
  varint.bytes = Varint.encode varint.value

/-- A payload as it is written. -/
inductive WrittenPayload where
  | varint (word : WrittenVarint)
  | fixed32 (bytes : Bytes) (hwidth : bytes.length = 4)
  | fixed64 (bytes : Bytes) (hwidth : bytes.length = 8)
  | lengthDelimited (length : WrittenVarint) (payload : Bytes)
      (hlength : payload.length = length.value.toNat)

namespace WrittenPayload

/-- The bytes of the payload, with its length in front where there is one. -/
def bytes : WrittenPayload → Bytes
  | .varint word => word.bytes
  | .fixed32 bytes _ | .fixed64 bytes _ => bytes
  | .lengthDelimited length payload _ => length.bytes ++ payload

/-- What is captured of the payload. -/
def value : WrittenPayload → UnknownValue
  | .varint word => .varint word.value
  | .fixed32 bytes _ => .fixed32 (UInt32.ofNat (Bytes.ofLittleEndian bytes))
  | .fixed64 bytes _ => .fixed64 (UInt64.ofNat (Bytes.ofLittleEndian bytes))
  | .lengthDelimited _ payload _ => .lengthDelimited payload

/-- The varints in a payload: its word, or the length in front. -/
def varints : WrittenPayload → List WrittenVarint
  | .varint word => [word]
  | .fixed32 _ _ | .fixed64 _ _ => []
  | .lengthDelimited length _ _ => [length]

end WrittenPayload

/-- A record as it is written. -/
structure WrittenRecord where
  number : UInt32
  payload : WrittenPayload
  key : WrittenVarint
  inRange : Tag.inRange number = true
  tagged : key.value = (Tag.make number payload.value.wireType).toUInt64

namespace WrittenRecord

/-- The bytes of the record. -/
def bytes (record : WrittenRecord) : Bytes := record.key.bytes ++ record.payload.bytes

/-- What is captured of the record. -/
def field (record : WrittenRecord) : UnknownField := ⟨record.number, record.payload.value⟩

/-- The varints in a record: its tag, and its word or length where it has one. -/
def varints (record : WrittenRecord) : List WrittenVarint := record.key :: record.payload.varints

end WrittenRecord

theorem UnknownValue.Frames.exists_written {bytes : Bytes} {value : UnknownValue}
    (hframes : value.Frames bytes) :
    ∃ payload : WrittenPayload, payload.bytes = bytes ∧ payload.value = value := by
  cases hframes with
  | varint _ word hdenotes => exact ⟨.varint ⟨bytes, word, hdenotes⟩, rfl, rfl⟩
  | fixed32 _ hwidth => exact ⟨.fixed32 bytes hwidth, rfl, rfl⟩
  | fixed64 _ hwidth => exact ⟨.fixed64 bytes hwidth, rfl, rfl⟩
  | lengthDelimited front payload length hdenotes hlength =>
      exact ⟨.lengthDelimited ⟨front, length, hdenotes⟩ payload hlength, rfl, rfl⟩

theorem UnknownField.Frames.exists_written {bytes : Bytes} {field : UnknownField}
    (hframes : field.Frames bytes) :
    ∃ record : WrittenRecord, record.bytes = bytes ∧ record.field = field := by
  have hcut : UnknownField.cut? bytes = some (field, []) :=
    UnknownField.cut_eq_some_iff.mpr ⟨bytes, (List.append_nil _).symm, hframes⟩
  unfold UnknownField.cut? at hcut
  simp only [Option.bind_eq_bind, Option.bind_eq_some_iff, Option.map_eq_some_iff,
    Prod.mk.injEq] at hcut
  obtain ⟨⟨key, middle⟩, hkey, ⟨value, rest⟩, hvalue, rfl, rfl⟩ := hcut
  obtain ⟨hrange, front, rfl, hdenotes⟩ := FieldKey.cut_eq_some_iff.mp hkey
  obtain ⟨hwire, back, rfl, hpayload⟩ := UnknownValue.cut_eq_some_iff.mp hvalue
  obtain ⟨payload, rfl, rfl⟩ := hpayload.exists_written
  refine ⟨⟨key.number, payload, ⟨front, _, hdenotes⟩, hrange, ?_⟩, ?_, rfl⟩
  · dsimp only at hwire
    rw [hwire]
  · rw [List.append_nil]
    rfl

/-- Whatever splits into records is written as records. -/
theorem SplitsInto.exists_written {bytes : Bytes} {fields : List UnknownField}
    (hsplits : SplitsInto bytes fields) :
    ∃ records : List WrittenRecord,
      bytes = records.flatMap (·.bytes) ∧ fields = records.map (·.field) := by
  induction hsplits with
  | nil => exact ⟨[], rfl, rfl⟩
  | cons front rest field fields hfront _ ih =>
      obtain ⟨record, rfl, rfl⟩ := hfront.exists_written
      obtain ⟨records, rfl, rfl⟩ := ih
      exact ⟨record :: records, rfl, rfl⟩

/-! ## Written back -/

/-- Parts that are no longer than others are joined to the same only if they are the same. -/
theorem append_eq_append_iff_of_le {α : Type} {front front' rest rest' : List α}
    (hfront : front.length ≤ front'.length) (hrest : rest.length ≤ rest'.length) :
    front ++ rest = front' ++ rest' ↔ front = front' ∧ rest = rest' := by
  constructor
  · intro hjoined
    have hlength := congrArg List.length hjoined
    rw [List.length_append, List.length_append] at hlength
    exact List.append_inj hjoined (by omega)
  · rintro ⟨rfl, rfl⟩
    rfl

theorem Bytes.ofLittleEndian_lt (bytes : Bytes) : ofLittleEndian bytes < 256 ^ bytes.length := by
  induction bytes with
  | nil => decide
  | cons byte rest ih =>
      have hlt := byte.toNat_lt
      rw [ofLittleEndian, List.length_cons, pow_succ]
      omega

theorem Bytes.littleEndian_ofLittleEndian {width : Nat} {bytes : Bytes}
    (hwidth : bytes.length = width) :
    littleEndian width (ofLittleEndian bytes % 256 ^ width) = bytes := by
  subst hwidth
  rw [Nat.mod_eq_of_lt (ofLittleEndian_lt bytes)]
  induction bytes with
  | nil => rfl
  | cons byte rest ih =>
      have hbyte : UInt8.ofNat (byte.toNat + 256 * ofLittleEndian rest) = byte := by
        apply UInt8.toNat_inj.mp
        rw [UInt8.toNat_ofNat']
        have hlt := byte.toNat_lt
        omega
      have hrest : (byte.toNat + 256 * ofLittleEndian rest) / 256 = ofLittleEndian rest := by
        have hlt := byte.toNat_lt
        omega
      rw [List.length_cons, ofLittleEndian, littleEndian, hbyte, hrest, ih]

namespace WrittenPayload

/-- A payload that is written back has the same length in front and the same bytes after it. -/
theorem encode_lengthDelimited (length : WrittenVarint) (payload : Bytes)
    (hlength : payload.length = length.value.toNat) :
    (lengthDelimited length payload hlength).value.encode =
      Varint.encode length.value ++ payload := by
  rw [value, UnknownValue.encode, Varint.delimited, hlength, UInt64.ofNat_toNat]

theorem length_encode_le (payload : WrittenPayload) :
    payload.value.encode.length ≤ payload.bytes.length := by
  cases payload with
  | varint word => exact Varint.length_encode_le word.denotes
  | fixed32 bytes hwidth => exact (Bytes.length_littleEndian ..).trans_le hwidth.ge
  | fixed64 bytes hwidth => exact (Bytes.length_littleEndian ..).trans_le hwidth.ge
  | lengthDelimited length payload hlength =>
      rw [encode_lengthDelimited, bytes, List.length_append, List.length_append]
      exact Nat.add_le_add_right (Varint.length_encode_le length.denotes) _

theorem encode_eq_bytes_iff (payload : WrittenPayload) :
    payload.value.encode = payload.bytes ↔ ∀ varint ∈ payload.varints, varint.IsCanonical := by
  cases payload with
  | varint word =>
      rw [varints, List.forall_mem_singleton]
      exact eq_comm
  | fixed32 bytes hwidth =>
      have hback : (fixed32 bytes hwidth).value.encode = bytes := by
        rw [value, UnknownValue.encode, UInt32.toNat_ofNat']
        exact Bytes.littleEndian_ofLittleEndian hwidth
      exact iff_of_true hback (List.forall_mem_nil _)
  | fixed64 bytes hwidth =>
      have hback : (fixed64 bytes hwidth).value.encode = bytes := by
        rw [value, UnknownValue.encode, UInt64.toNat_ofNat']
        exact Bytes.littleEndian_ofLittleEndian hwidth
      exact iff_of_true hback (List.forall_mem_nil _)
  | lengthDelimited length payload hlength =>
      rw [varints, List.forall_mem_singleton, encode_lengthDelimited, bytes,
        List.append_left_inj]
      exact eq_comm

end WrittenPayload

namespace WrittenRecord

theorem encode_field (record : WrittenRecord) :
    record.field.encode = Varint.encode record.key.value ++ record.payload.value.encode := by
  rw [record.tagged]
  rfl

theorem length_encode_le (record : WrittenRecord) :
    record.field.encode.length ≤ record.bytes.length := by
  rw [encode_field, bytes, List.length_append, List.length_append]
  exact Nat.add_le_add (Varint.length_encode_le record.key.denotes)
    record.payload.length_encode_le

theorem encode_eq_bytes_iff (record : WrittenRecord) :
    record.field.encode = record.bytes ↔ ∀ varint ∈ record.varints, varint.IsCanonical := by
  rw [encode_field, bytes, append_eq_append_iff_of_le
    (Varint.length_encode_le record.key.denotes) record.payload.length_encode_le,
    record.payload.encode_eq_bytes_iff, varints, List.forall_mem_cons]
  exact and_congr_left' eq_comm

/-- Records that are written back take no more bytes. -/
theorem length_flatMap_encode_le (records : List WrittenRecord) :
    ((records.map (·.field)).flatMap UnknownField.encode).length
      ≤ (records.flatMap (·.bytes)).length := by
  induction records with
  | nil => exact le_rfl
  | cons record records ih =>
      rw [List.map_cons, List.flatMap_cons, List.flatMap_cons, List.length_append,
        List.length_append]
      exact Nat.add_le_add record.length_encode_le ih

/-- Records are written back byte for byte exactly when the encoder would have written every
varint in them in the same way. -/
theorem flatMap_encode_eq_bytes_iff (records : List WrittenRecord) :
    (records.map (·.field)).flatMap UnknownField.encode = records.flatMap (·.bytes) ↔
      ∀ record ∈ records, ∀ varint ∈ record.varints, varint.IsCanonical := by
  induction records with
  | nil => simp
  | cons record records ih =>
      rw [List.map_cons, List.flatMap_cons, List.flatMap_cons, append_eq_append_iff_of_le
        record.length_encode_le (length_flatMap_encode_le records), record.encode_eq_bytes_iff,
        ih, List.forall_mem_cons]

end WrittenRecord

end ProtoWire
