import ProtoWire.Proofs.Pieces
import ProtoWire.Proofs.Slots

/-! # Keys

The key of a record is decoded by a reader, as a tag that is split afterwards, and on its own from
pieces. Both refuse the same bytes and otherwise find the same key in as many bytes, but for varints
that are wider than a tag. A reader refuses them all; from pieces one is taken for the key that its
low 32 bits are the tag of.
-/

namespace ProtoWire

variable {chunks : Chunks} {bytes : Bytes} {config : ReaderConfig} {raw : UInt64} {count : Nat}
  {error : DecodeError}

/-! ## The two decoders -/

namespace Tag

theorem decodeKey_ok (hdecode : Varint.decode chunks.content = .ok (raw, count)) :
    ∃ after, decodeKey chunks = (split raw.toUInt32, after) ∧
      after.content = chunks.content.drop count := by
  have hcount := Varint.decode_count hdecode
  obtain ⟨after, hdecoded, hafter⟩ := Varint.decodeChunks_ok hdecode
  refine ⟨after, ?_, hafter⟩
  rw [decodeKey, if_neg (by rw [Chunks.remaining]; omega), Varint.decodeChunks32, hdecoded]
  rfl

theorem decodeKey_error (hbytes : chunks.content ≠ [])
    (hdecode : Varint.decode chunks.content = .error error) :
    ∃ after, decodeKey chunks = (.error error, after) := by
  have hlength := List.length_pos_iff.mpr hbytes
  obtain ⟨after, hdecoded, -⟩ := Varint.decodeChunks_error hdecode
  refine ⟨after, ?_⟩
  rw [decodeKey, if_neg (by rw [Chunks.remaining]; omega), Varint.decodeChunks32, hdecoded]
  rfl

/-- The number that is refused in a tag is not in range. -/
theorem split_of_zero {tag : UInt32} (hnumber : tag.toNat / 8 < 1) :
    split tag = .error (.invalidFieldNumber 0) := by
  have hzero : fieldNumber tag = 0 := by
    apply UInt32.toNat_inj.mp
    rw [fieldNumber, UInt32.toNat_div]
    exact Nat.lt_one_iff.mp hnumber
  rw [split, hzero]
  rfl

end Tag

namespace Reader

theorem readTag_of_decode_ok (hdecode : Varint.decode bytes = .ok (raw, count)) :
    readTag (.ofBytes bytes config) = acceptTag raw ((ofBytes bytes config).skip count) := by
  have hcount := Varint.decode_count hdecode
  have hread := readVarint64_ok (sound_ofBytes bytes config)
    ((window_ofBytes bytes config).symm ▸ hdecode)
  have hbefore : (ofBytes bytes config).position < (ofBytes bytes config).limit :=
    hcount.1.trans_le hcount.2
  rw [readTag_before_end hbefore, bind_ok hread]

theorem readTag_of_decode_error (hbytes : bytes ≠ [])
    (hdecode : Varint.decode bytes = .error error) :
    readTag (.ofBytes bytes config) = .error error (ofBytes bytes config) := by
  have hread := readVarint64_error (sound_ofBytes bytes config)
    ((window_ofBytes bytes config).symm ▸ hdecode)
  have hbefore : (ofBytes bytes config).position < (ofBytes bytes config).limit :=
    List.length_pos_iff.mpr hbytes
  rw [readTag_before_end hbefore, bind_error hread]

end Reader

/-! ## Where they agree -/

namespace Tag

/-- Both decoders refuse the bytes, or both find the same key in as many of them. -/
def KeysAgree (chunks : Chunks) (config : ReaderConfig) : Prop :=
  match decodeKey chunks, Reader.readTag (.ofBytes chunks.content config) with
  | (.ok key, rest), .ok tag reader =>
      split tag = .ok key ∧ chunks.remaining = reader.position + rest.remaining
  | (.error _, _), .error _ _ => True
  | _, _ => False

/-- In front of the bytes is a varint that is wider than a tag, and its low 32 bits are the tag of
the key. -/
def HidesKey (bytes : Bytes) (key : FieldKey) : Prop :=
  ∃ raw count, Varint.decode bytes = .ok (raw, count) ∧ 4294967295 < raw ∧
    split raw.toUInt32 = .ok key

theorem keysAgree_of_error (hbytes : chunks.content ≠ [])
    (hdecode : Varint.decode chunks.content = .error error) : KeysAgree chunks config := by
  obtain ⟨after, hdecoded⟩ := decodeKey_error hbytes hdecode
  rw [KeysAgree, hdecoded, Reader.readTag_of_decode_error hbytes hdecode]
  trivial

/-- A varint that is no wider than a tag is split by both alike. -/
theorem keysAgree_of_le (hdecode : Varint.decode chunks.content = .ok (raw, count))
    (hraw : raw ≤ 4294967295) : KeysAgree chunks config := by
  have hcount := (Varint.decode_count hdecode).2
  obtain ⟨after, hdecoded, hafter⟩ := decodeKey_ok hdecode
  rw [KeysAgree, hdecoded, Reader.readTag_of_decode_ok hdecode, Reader.acceptTag,
    if_neg (UInt64.not_lt.mpr hraw)]
  cases hsplit : split raw.toUInt32 with
  | error error => trivial
  | ok key =>
      refine ⟨hsplit, ?_⟩
      have hposition : ((Reader.ofBytes chunks.content config).skip count).position = count :=
        Nat.zero_add count
      change chunks.remaining = ((Reader.ofBytes chunks.content config).skip count).position + _
      rw [hposition, Chunks.remaining, Chunks.remaining, hafter, List.length_drop]
      omega

/-- A wider varint is refused by a reader. So they agree only if its low bits are refused too. -/
theorem keysAgree_iff_of_lt (hdecode : Varint.decode chunks.content = .ok (raw, count))
    (hraw : 4294967295 < raw) :
    KeysAgree chunks config ↔ ∀ key, split raw.toUInt32 ≠ .ok key := by
  obtain ⟨after, hdecoded, -⟩ := decodeKey_ok hdecode
  rw [KeysAgree, hdecoded, Reader.readTag_of_decode_ok hdecode, Reader.acceptTag, if_pos hraw]
  cases split raw.toUInt32 with
  | error error => simp
  | ok key => simp

/-- A reader refuses every number out of range, and the error names it. -/
theorem readTag_out_of_range (config : ReaderConfig)
    (hdecode : Varint.decode bytes = .ok (raw, count))
    (hnumber : ¬ (1 ≤ raw.toNat / 8 ∧ raw.toNat / 8 < 536870912)) :
    ∃ reader, Reader.readTag (.ofBytes bytes config) =
      .error (.invalidFieldNumber (UInt32.ofNat (min (raw.toNat / 8) 4294967295))) reader := by
  rw [Reader.readTag_of_decode_ok hdecode, Reader.acceptTag]
  split
  next hraw =>
    rw [UInt64.toNat_div]
    exact ⟨_, rfl⟩
  next hraw =>
    have hle := UInt64.le_iff_toNat_le.mp (UInt64.not_lt.mp hraw)
    change raw.toNat ≤ 4294967295 at hle
    have hlow : raw.toUInt32.toNat = raw.toNat := by
      rw [UInt64.toNat_toUInt32]
      omega
    have hzero : raw.toNat / 8 = 0 := by omega
    rw [split_of_zero (by rw [hlow]; omega), hzero]
    exact ⟨_, rfl⟩

/-- The number of a hidden key is not the number that the varint denotes. -/
theorem number_lt_of_wide {key : FieldKey} (hraw : 4294967295 < raw)
    (hsplit : split raw.toUInt32 = .ok key) : key.number.toNat < raw.toNat / 8 := by
  obtain ⟨hrange, -⟩ := split_eq_ok_iff.mp hsplit
  have hbound := ((inRange_iff key.number).mp hrange).2
  have hwide := UInt64.lt_iff_toNat_lt.mp hraw
  change 4294967295 < raw.toNat at hwide
  omega

/-- On bytes in any pieces the two decoders of keys agree exactly if no key is hidden in a wider
varint. A number out of range is always refused by the reader, and from pieces unless a key is
hidden. A hidden key is taken, with a number less than the one that the varint denotes. -/
theorem keysAgree_iff (chunks : Chunks) (config : ReaderConfig) (hbytes : chunks.content ≠ []) :
    (KeysAgree chunks config ↔ ∀ key, ¬ HidesKey chunks.content key) ∧
    (∀ raw count, Varint.decode chunks.content = .ok (raw, count) →
      ¬ (1 ≤ raw.toNat / 8 ∧ raw.toNat / 8 < 536870912) →
        (∃ reader, Reader.readTag (.ofBytes chunks.content config) =
          .error (.invalidFieldNumber (UInt32.ofNat (min (raw.toNat / 8) 4294967295))) reader) ∧
        ((∀ key, ¬ HidesKey chunks.content key) →
          ∃ error rest, decodeKey chunks = (.error error, rest))) ∧
    ∀ key, HidesKey chunks.content key →
      ∃ raw count rest, Varint.decode chunks.content = .ok (raw, count) ∧
        key.number.toNat < raw.toNat / 8 ∧ decodeKey chunks = (.ok key, rest) ∧
        rest.content = chunks.content.drop count := by
  have hagree : KeysAgree chunks config ↔ ∀ key, ¬ HidesKey chunks.content key := by
    cases hdecode : Varint.decode chunks.content with
    | error error => simp [HidesKey, hdecode, keysAgree_of_error hbytes hdecode]
    | ok found =>
        obtain ⟨raw, count⟩ := found
        by_cases hraw : 4294967295 < raw
        · simp [HidesKey, hdecode, hraw, keysAgree_iff_of_lt hdecode hraw]
        · simp [HidesKey, hdecode, hraw, keysAgree_of_le hdecode (UInt64.not_lt.mp hraw)]
  refine ⟨hagree, ?_, ?_⟩
  · intro raw count hdecode hnumber
    obtain ⟨reader, hrefused⟩ := readTag_out_of_range config hdecode hnumber
    refine ⟨⟨reader, hrefused⟩, fun hnone => ?_⟩
    have hboth := hagree.mpr hnone
    rw [KeysAgree, hrefused] at hboth
    obtain ⟨after, hdecoded, -⟩ := decodeKey_ok hdecode
    rw [hdecoded] at hboth ⊢
    cases hsplit : split raw.toUInt32 with
    | error error => exact ⟨error, after, rfl⟩
    | ok key => simp [hsplit] at hboth
  · rintro key ⟨raw, count, hdecode, hraw, hsplit⟩
    obtain ⟨after, hdecoded, hafter⟩ := decodeKey_ok hdecode
    exact ⟨raw, count, after, hdecode, number_lt_of_wide hraw hsplit, hsplit ▸ hdecoded, hafter⟩

/-- A key of two bytes in pieces of one byte, and one hidden in a varint of five bytes, which is
taken whole. -/
theorem keys_in_pieces :
    KeysAgree [[0x82], [], [0x01], [0xff]] {} ∧
      ¬ KeysAgree [[0x88, 0x80], [0x80, 0x80, 0x10], [0xff]] {} ∧
      ∃ rest, decodeKey [[0x88, 0x80], [0x80, 0x80, 0x10], [0xff]] = (.ok ⟨1, .varint⟩, rest) ∧
        rest.content = [0xff] := by
  obtain ⟨hagree, -, -⟩ := keysAgree_iff [[0x82], [], [0x01], [0xff]] {} (by decide)
  obtain ⟨hdiffer, -, htaken⟩ :=
    keysAgree_iff [[0x88, 0x80], [0x80, 0x80, 0x10], [0xff]] {} (by decide)
  have hhidden : HidesKey (Chunks.content [[0x88, 0x80], [0x80, 0x80, 0x10], [0xff]])
      ⟨1, .varint⟩ := ⟨4294967304, 5, by decide, by decide, by decide⟩
  refine ⟨hagree.mpr ?_, fun hboth => hdiffer.mp hboth _ hhidden, ?_⟩
  · rintro key ⟨raw, count, hdecode, hraw, -⟩
    have hvalue : Varint.decode (Chunks.content [[0x82], [], [0x01], [0xff]]) = .ok (130, 2) := by
      decide
    cases hvalue.symm.trans hdecode
    exact absurd hraw (by decide)
  · obtain ⟨raw, count, rest, hdecode, -, hdecoded, hrest⟩ := htaken _ hhidden
    have hvalue : Varint.decode (Chunks.content [[0x88, 0x80], [0x80, 0x80, 0x10], [0xff]]) =
        .ok (4294967304, 5) := by decide
    cases hvalue.symm.trans hdecode
    exact ⟨rest, hdecoded, hrest⟩

/-- The varint of eight times 2^29 + 1 is refused for its number by a reader, and taken for the key
of field 1 from a piece. -/
theorem wide_number_taken :
    Chunks.content [[0x88, 0x80, 0x80, 0x80, 0x10]] ≠ [] ∧
      (∃ rest, decodeKey [[0x88, 0x80, 0x80, 0x80, 0x10]] = (.ok ⟨1, .varint⟩, rest)) ∧
      (∃ reader, Reader.readTag (.ofBytes [0x88, 0x80, 0x80, 0x80, 0x10] {}) =
        .error (.invalidFieldNumber 536870913) reader) ∧
      ¬ KeysAgree [[0x88, 0x80, 0x80, 0x80, 0x10]] {} := by
  have hdecode : Varint.decode [0x88, 0x80, 0x80, 0x80, 0x10] = .ok (4294967304, 5) := by decide
  obtain ⟨rest, hdecoded, -⟩ := @decodeKey_ok [[0x88, 0x80, 0x80, 0x80, 0x10]] _ _ hdecode
  have hrefused := readTag_out_of_range {} hdecode (by decide)
  have hnumber : UInt32.ofNat (min (UInt64.toNat 4294967304 / 8) 4294967295) = 536870913 := by
    decide
  rw [hnumber] at hrefused
  refine ⟨by decide, ⟨rest, hdecoded⟩, hrefused, fun hboth => ?_⟩
  have hwide : (4294967295 : UInt64) < 4294967304 := by decide
  rw [@keysAgree_iff_of_lt [[0x88, 0x80, 0x80, 0x80, 0x10]] _ _ _ hdecode hwide] at hboth
  exact hboth ⟨1, .varint⟩ (by decide)

end Tag

end ProtoWire
