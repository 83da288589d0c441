import ProtoWire.Proofs.Varint
import ProtoWire.UnknownField

/-! # Cutting bytes into records

A record is a key and a payload, and the wire type in the key alone tells where the payload ends.
A byte string splits into records in at most one way. Writing records and cutting them apart again
gives the same records.
-/

namespace ProtoWire

/-! ## Keys
-/

namespace WireType

theorem ofValue_eq_ok_iff {value : UInt32} {wireType : WireType} :
    ofValue value = .ok wireType ↔ value = wireType.value.toUInt32 := by
  unfold ofValue
  constructor
  · intro h
    split at h
    next hvalue =>
      cases h
      exact hvalue
    split at h
    next hvalue =>
      cases h
      exact hvalue
    split at h
    next hvalue =>
      cases h
      exact hvalue
    split at h
    next hvalue =>
      cases h
      exact hvalue
    split at h <;> cases h
  · rintro rfl
    cases wireType <;> rfl

theorem value_lt (wireType : WireType) : wireType.value.toNat < 8 := by
  cases wireType <;> decide

theorem value_injective {a b : WireType} (h : a.value.toNat = b.value.toNat) : a = b := by
  cases a <;> cases b <;> first | rfl | exact absurd h (by decide)

end WireType

namespace Tag

theorem inRange_iff (number : UInt32) :
    inRange number = true ↔ 1 ≤ number.toNat ∧ number.toNat < 536870912 := by
  simp only [inRange, minimumNumber, maximumNumber, Bool.and_eq_true, decide_eq_true_eq,
    UInt32.le_iff_toNat_le]
  constructor
  · rintro ⟨hlow, hhigh⟩
    exact ⟨hlow, Nat.lt_succ_of_le hhigh⟩
  · rintro ⟨hlow, hhigh⟩
    exact ⟨hlow, Nat.le_of_lt_succ hhigh⟩

theorem make_toNat {number : UInt32} (hnumber : inRange number = true) (wireType : WireType) :
    (make number wireType).toNat = number.toNat * 8 + wireType.value.toNat := by
  have hbound := (inRange_iff number).mp hnumber
  have hvalue := wireType.value_lt
  rw [make, UInt32.toNat_add, UInt32.toNat_mul, UInt8.toNat_toUInt32]
  change (number.toNat * 8 % 4294967296 + wireType.value.toNat) % 4294967296 = _
  omega

/-- The tag 0, which stands for the end, is never made. -/
theorem make_ne_zero {number : UInt32} (hnumber : inRange number = true) (wireType : WireType) :
    make number wireType ≠ 0 := by
  intro hzero
  have hnat := congrArg UInt32.toNat hzero
  rw [make_toNat hnumber] at hnat
  have hbound := (inRange_iff number).mp hnumber
  change _ = 0 at hnat
  omega

/-- A tag tells number and wire type apart. -/
theorem make_injective {number number' : UInt32} {wireType wireType' : WireType}
    (hnumber : inRange number = true) (hnumber' : inRange number' = true)
    (h : make number wireType = make number' wireType') :
    number = number' ∧ wireType = wireType' := by
  have hnat := congrArg UInt32.toNat h
  rw [make_toNat hnumber, make_toNat hnumber'] at hnat
  have hvalue := wireType.value_lt
  have hvalue' := wireType'.value_lt
  exact ⟨UInt32.toNat_inj.mp (by omega), WireType.value_injective (by omega)⟩

/-- Exactly the tags made from a number in range and a wire type can be split. -/
theorem split_eq_ok_iff {tag : UInt32} {key : FieldKey} :
    split tag = .ok key ↔ inRange key.number = true ∧ tag = make key.number key.wireType := by
  obtain ⟨number, wireType⟩ := key
  have hdiv : (fieldNumber tag).toNat = tag.toNat / 8 := by
    rw [fieldNumber, UInt32.toNat_div]
    rfl
  have hmod : (tag % 8).toNat = tag.toNat % 8 := by
    rw [UInt32.toNat_mod]
    rfl
  have hbound := tag.toNat_lt
  unfold split
  constructor
  · intro h
    split at h
    next => cases h
    next hpositive =>
      cases hwire : WireType.ofValue (tag % 8) with
      | error error =>
          rw [hwire] at h
          cases h
      | ok found =>
          rw [hwire] at h
          cases h
          have hrange : inRange (fieldNumber tag) = true := by
            rw [inRange_iff, hdiv]
            rw [UInt32.lt_iff_toNat_lt, hdiv] at hpositive
            change ¬ tag.toNat / 8 < 1 at hpositive
            omega
          refine ⟨hrange, ?_⟩
          apply UInt32.toNat_inj.mp
          have hvalue := congrArg UInt32.toNat (WireType.ofValue_eq_ok_iff.mp hwire)
          rw [hmod, UInt8.toNat_toUInt32] at hvalue
          change tag.toNat = (make (fieldNumber tag) wireType).toNat
          rw [make_toNat hrange, hdiv, ← hvalue]
          omega
  · rintro ⟨hrange, rfl⟩
    change inRange number = true at hrange
    have hnat := make_toNat hrange wireType
    have hvalue := wireType.value_lt
    have hnumber := (inRange_iff number).mp hrange
    have heq : fieldNumber (make number wireType) = number := by
      apply UInt32.toNat_inj.mp
      rw [hdiv]
      change (make number wireType).toNat / 8 = number.toNat
      omega
    have hwire : WireType.ofValue (make number wireType % 8) = .ok wireType := by
      rw [WireType.ofValue_eq_ok_iff]
      apply UInt32.toNat_inj.mp
      rw [UInt8.toNat_toUInt32, hmod]
      change (make number wireType).toNat % 8 = _
      omega
    dsimp only
    rw [heq, hwire, if_neg]
    · rfl
    · rw [UInt32.lt_iff_toNat_lt]
      change ¬ number.toNat < 1
      omega

theorem encodeKey_ne_nil (number : UInt32) (wireType : WireType) :
    encodeKey number wireType ≠ [] := by
  intro hnil
  have hlength := congrArg List.length hnil
  rw [encodeKey, encode, Varint.length_encode] at hlength
  exact (Varint.size_pos _).ne' hlength

/-- The wire type never changes the number of bytes of a key. -/
theorem length_encodeKey {number : UInt32} (hnumber : inRange number = true)
    (wireType : WireType) : (encodeKey number wireType).length = keySize number := by
  have hbound := (inRange_iff number).mp hnumber
  have hvalue := wireType.value_lt
  have hmake := make_toNat hnumber wireType
  have hkey : (number.toUInt64 * 8).toNat = number.toNat * 8 := by
    rw [UInt64.toNat_mul, UInt32.toNat_toUInt64]
    change number.toNat * 8 % 18446744073709551616 = _
    omega
  have hlog : ∀ low < 8, (number.toNat * 8 + low).log2 = number.toNat.log2 + 3 := by
    intro low hlow
    have hstep : ∀ n, 2 ≤ n → n.log2 = (n / 2).log2 + 1 := fun n hn => by
      rw [Nat.log2_def, if_pos hn]
    rw [hstep _ (by omega), hstep _ (by omega), hstep _ (by omega)]
    have hdiv : (number.toNat * 8 + low) / 2 / 2 / 2 = number.toNat := by omega
    rw [hdiv]
  have hplain : (number.toNat * 8).log2 = number.toNat.log2 + 3 := hlog 0 (by omega)
  have hor : ∀ value : UInt64, (value ||| 1).toNat = value.toNat ||| 1 :=
    fun value => UInt64.toNat_or value 1
  rw [encodeKey, encode, Varint.length_encode, keySize, Varint.size, Varint.size, hor, hor, hkey,
    UInt32.toNat_toUInt64, hmake, Varint.log2_or_one (by omega), Varint.log2_or_one (by omega),
    hlog _ hvalue, hplain]

end Tag

/-! ## Cutting off the front -/

/-- The varint in front of a byte string, and the bytes after it. -/
def Varint.cut? (bytes : Bytes) : Option (UInt64 × Bytes) :=
  match Varint.decode bytes with
  | .ok (value, count) => some (value, bytes.drop count)
  | .error _ => none

/-- The first `count` bytes of a byte string, and the bytes after them. -/
def Bytes.cut? (count : Nat) (bytes : Bytes) : Option (Bytes × Bytes) :=
  if count ≤ bytes.length then some (bytes.take count, bytes.drop count) else none

/-- The key in front of a byte string, and the bytes after it. -/
def FieldKey.cut? (bytes : Bytes) : Option (FieldKey × Bytes) := do
  let (raw, rest) ← Varint.cut? bytes
  if raw ≤ 4294967295 then
    let key ← (Tag.split raw.toUInt32).toOption
    return (key, rest)
  else none

/-- The payload of a wire type in front of a byte string, and the bytes after it. -/
def UnknownValue.cut? (wireType : WireType) (bytes : Bytes) : Option (UnknownValue × Bytes) :=
  match wireType with
  | .varint => (Varint.cut? bytes).map fun (value, rest) => (.varint value, rest)
  | .i64 => (Bytes.cut? 8 bytes).map fun (word, rest) =>
      (.fixed64 (UInt64.ofNat (Bytes.ofLittleEndian word)), rest)
  | .i32 => (Bytes.cut? 4 bytes).map fun (word, rest) =>
      (.fixed32 (UInt32.ofNat (Bytes.ofLittleEndian word)), rest)
  | .len => do
      let (length, rest) ← Varint.cut? bytes
      (Bytes.cut? length.toNat rest).map fun (payload, rest) => (.lengthDelimited payload, rest)

/-- The record in front of a byte string, and the bytes after it. -/
def UnknownField.cut? (bytes : Bytes) : Option (UnknownField × Bytes) := do
  let (key, rest) ← FieldKey.cut? bytes
  (UnknownValue.cut? key.wireType rest).map fun (value, rest) => (⟨key.number, value⟩, rest)

/-- A cutter takes at least one byte and leaves the end of its input. -/
def Cuts {α : Type} (cut : Bytes → Option (α × Bytes)) : Prop :=
  ∀ bytes value rest, cut bytes = some (value, rest) →
    ∃ front, front ≠ [] ∧ bytes = front ++ rest

theorem Varint.cut_eq_some_iff {bytes rest : Bytes} {value : UInt64} :
    Varint.cut? bytes = some (value, rest) ↔
      ∃ front, bytes = front ++ rest ∧ Varint.decode front = .ok (value, front.length) := by
  unfold Varint.cut?
  constructor
  · intro h
    split at h
    next value' count hdecode =>
      simp only [Option.some.injEq, Prod.mk.injEq] at h
      obtain ⟨rfl, rfl⟩ := h
      refine ⟨bytes.take count, (List.take_append_drop count bytes).symm, ?_⟩
      have htake := Varint.decode_take_append hdecode []
      rw [List.append_nil] at htake
      rw [htake, List.length_take_of_le (Varint.decode_count hdecode).2]
    next => cases h
  · rintro ⟨front, rfl, hdecode⟩
    have hfront := Varint.decode_take_append hdecode rest
    rw [List.take_length] at hfront
    rw [hfront]
    simp only [List.drop_left]

theorem Bytes.cut_eq_some_iff {count : Nat} {bytes front rest : Bytes} :
    Bytes.cut? count bytes = some (front, rest) ↔
      bytes = front ++ rest ∧ front.length = count := by
  unfold Bytes.cut?
  constructor
  · intro h
    split at h
    next hle =>
      simp only [Option.some.injEq, Prod.mk.injEq] at h
      obtain ⟨rfl, rfl⟩ := h
      exact ⟨(List.take_append_drop count bytes).symm, List.length_take_of_le hle⟩
    next => cases h
  · rintro ⟨rfl, rfl⟩
    rw [if_pos (by simp)]
    simp only [List.take_left, List.drop_left]

/-! ## Payloads and records -/

/-- The tag in the key of a record. -/
def UnknownField.tag (field : UnknownField) : UInt32 :=
  Tag.make field.number field.value.wireType

/-- Bytes that are a varint of `value`, in whatever number of bytes, and nothing else. -/
def Varint.Denotes (bytes : Bytes) (value : UInt64) : Prop :=
  Varint.decode bytes = .ok (value, bytes.length)

/-- Bytes that hold one payload, framed by its wire type. -/
inductive UnknownValue.Frames : Bytes → UnknownValue → Prop where
  | varint (bytes : Bytes) (value : UInt64) (hvalue : Varint.Denotes bytes value) :
      Frames bytes (.varint value)
  | fixed32 (bytes : Bytes) (hwidth : bytes.length = 4) :
      Frames bytes (.fixed32 (UInt32.ofNat (Bytes.ofLittleEndian bytes)))
  | fixed64 (bytes : Bytes) (hwidth : bytes.length = 8) :
      Frames bytes (.fixed64 (UInt64.ofNat (Bytes.ofLittleEndian bytes)))
  | lengthDelimited (front payload : Bytes) (length : UInt64)
      (hlength : Varint.Denotes front length) (hpayload : payload.length = length.toNat) :
      Frames (front ++ payload) (.lengthDelimited payload)

/-- Bytes that hold one record: the varint of a 32-bit tag with a number of at least 1 and a wire
type that is defined, and a payload framed by the wire type alone. -/
inductive UnknownField.Frames : Bytes → UnknownField → Prop where
  | mk (key payload : Bytes) (field : UnknownField) (raw : UInt64)
      (hkey : Varint.Denotes key raw) (hraw : raw ≤ 4294967295)
      (hnumber : field.number.toNat = raw.toNat / 8) (hpositive : 1 ≤ field.number)
      (hwire : field.value.wireType.value.toNat = raw.toNat % 8)
      (hpayload : field.value.Frames payload) :
      Frames (key ++ payload) field

/-- A byte string that is a sequence of records from beginning to end. -/
inductive SplitsInto : Bytes → List UnknownField → Prop where
  | nil : SplitsInto [] []
  | cons (front rest : Bytes) (field : UnknownField) (fields : List UnknownField)
      (hfront : field.Frames front) (hrest : SplitsInto rest fields) :
      SplitsInto (front ++ rest) (field :: fields)

namespace UnknownValue

theorem cut_eq_some_iff {wireType : WireType} {bytes rest : Bytes} {value : UnknownValue} :
    cut? wireType bytes = some (value, rest) ↔
      value.wireType = wireType ∧ ∃ front, bytes = front ++ rest ∧ value.Frames front := by
  constructor
  · intro h
    cases wireType with
    | varint =>
        simp only [cut?, Option.map_eq_some_iff, Prod.mk.injEq] at h
        obtain ⟨⟨word, rest'⟩, hcut, rfl, rfl⟩ := h
        obtain ⟨front, hbytes, hdecode⟩ := Varint.cut_eq_some_iff.mp hcut
        exact ⟨rfl, front, hbytes, .varint front word hdecode⟩
    | i64 =>
        simp only [cut?, Option.map_eq_some_iff, Prod.mk.injEq] at h
        obtain ⟨⟨front, rest'⟩, hcut, rfl, rfl⟩ := h
        obtain ⟨hbytes, hwidth⟩ := Bytes.cut_eq_some_iff.mp hcut
        exact ⟨rfl, front, hbytes, .fixed64 front hwidth⟩
    | i32 =>
        simp only [cut?, Option.map_eq_some_iff, Prod.mk.injEq] at h
        obtain ⟨⟨front, rest'⟩, hcut, rfl, rfl⟩ := h
        obtain ⟨hbytes, hwidth⟩ := Bytes.cut_eq_some_iff.mp hcut
        exact ⟨rfl, front, hbytes, .fixed32 front hwidth⟩
    | len =>
        simp only [cut?, Option.bind_eq_bind, Option.bind_eq_some_iff, Option.map_eq_some_iff,
          Prod.mk.injEq] at h
        obtain ⟨⟨length, middle⟩, hcut, ⟨payload, rest'⟩, hpayload, rfl, rfl⟩ := h
        dsimp only at hpayload ⊢
        obtain ⟨front, hbytes, hdecode⟩ := Varint.cut_eq_some_iff.mp hcut
        obtain ⟨hmiddle, hlength⟩ := Bytes.cut_eq_some_iff.mp hpayload
        refine ⟨rfl, front ++ payload, ?_, .lengthDelimited front payload length hdecode hlength⟩
        rw [hbytes, hmiddle, List.append_assoc]
  · rintro ⟨rfl, front, rfl, hframes⟩
    cases hframes with
    | varint _ word hdecode =>
        have hcut : Varint.cut? (front ++ rest) = some (word, rest) :=
          Varint.cut_eq_some_iff.mpr ⟨front, rfl, hdecode⟩
        simp only [cut?, wireType, hcut, Option.map_some]
    | fixed32 _ hwidth =>
        have hcut : Bytes.cut? 4 (front ++ rest) = some (front, rest) :=
          Bytes.cut_eq_some_iff.mpr ⟨rfl, hwidth⟩
        simp only [cut?, wireType, hcut, Option.map_some]
    | fixed64 _ hwidth =>
        have hcut : Bytes.cut? 8 (front ++ rest) = some (front, rest) :=
          Bytes.cut_eq_some_iff.mpr ⟨rfl, hwidth⟩
        simp only [cut?, wireType, hcut, Option.map_some]
    | lengthDelimited head payload length hdecode hlength =>
        have hcut : Varint.cut? (head ++ payload ++ rest) = some (length, payload ++ rest) :=
          Varint.cut_eq_some_iff.mpr ⟨head, List.append_assoc _ _ _, hdecode⟩
        have hpayload : Bytes.cut? length.toNat (payload ++ rest) = some (payload, rest) :=
          Bytes.cut_eq_some_iff.mpr ⟨rfl, hlength⟩
        simp only [cut?, wireType, hcut, hpayload, Option.bind_eq_bind, Option.bind_some,
          Option.map_some]

theorem Frames.ne_nil {bytes : Bytes} {value : UnknownValue} (hframes : value.Frames bytes) :
    bytes ≠ [] := by
  have hvarint : ∀ {bytes : Bytes} {word : UInt64}, Varint.Denotes bytes word → bytes ≠ [] := by
    rintro bytes word hdecode rfl
    exact absurd (Varint.decode_count hdecode).1 (by decide)
  cases hframes with
  | varint _ word hdecode => exact hvarint hdecode
  | fixed32 _ hwidth =>
      rintro rfl
      exact absurd hwidth (by decide)
  | fixed64 _ hwidth =>
      rintro rfl
      exact absurd hwidth (by decide)
  | lengthDelimited front payload length hdecode hlength =>
      exact List.append_ne_nil_of_left_ne_nil (hvarint hdecode) payload

theorem cuts (wireType : WireType) : Cuts (cut? wireType) := by
  intro bytes value rest h
  obtain ⟨_, front, hbytes, hframes⟩ := cut_eq_some_iff.mp h
  exact ⟨front, hframes.ne_nil, hbytes⟩

end UnknownValue

theorem toUInt64_toUInt32_of_le {raw : UInt64} (hraw : raw ≤ 4294967295) :
    raw.toUInt32.toUInt64 = raw := by
  rw [UInt64.le_iff_toNat_le] at hraw
  change raw.toNat ≤ 4294967295 at hraw
  apply UInt64.toNat_inj.mp
  rw [UInt32.toNat_toUInt64, UInt64.toNat_toUInt32]
  exact Nat.mod_eq_of_lt (by omega)

theorem FieldKey.cut_eq_some_iff {bytes rest : Bytes} {key : FieldKey} :
    FieldKey.cut? bytes = some (key, rest) ↔
      Tag.inRange key.number = true ∧ ∃ front, bytes = front ++ rest ∧
        Varint.Denotes front (Tag.make key.number key.wireType).toUInt64 := by
  unfold FieldKey.cut?
  simp only [Option.bind_eq_bind, Option.bind_eq_some_iff]
  constructor
  · rintro ⟨⟨raw, rest'⟩, hcut, h⟩
    dsimp only at h
    split at h
    next hraw =>
      simp only [Option.bind_eq_some_iff, Option.pure_def, Option.some.injEq, Prod.mk.injEq] at h
      obtain ⟨key', hsplit, rfl, rfl⟩ := h
      have hok : Tag.split raw.toUInt32 = .ok key' := by
        cases hfound : Tag.split raw.toUInt32 with
        | error error =>
            rw [hfound] at hsplit
            cases hsplit
        | ok found =>
            rw [hfound] at hsplit
            cases hsplit
            rfl
      obtain ⟨hrange, htag⟩ := Tag.split_eq_ok_iff.mp hok
      obtain ⟨front, hbytes, hdecode⟩ := Varint.cut_eq_some_iff.mp hcut
      refine ⟨hrange, front, hbytes, ?_⟩
      rw [← htag, toUInt64_toUInt32_of_le hraw]
      exact hdecode
    next => cases h
  · rintro ⟨hrange, front, hbytes, hdecode⟩
    refine ⟨(_, rest), Varint.cut_eq_some_iff.mpr ⟨front, hbytes, hdecode⟩, ?_⟩
    have hsmall : (Tag.make key.number key.wireType).toUInt64 ≤ 4294967295 := by
      rw [UInt64.le_iff_toNat_le, UInt32.toNat_toUInt64]
      exact Nat.le_of_lt_succ (Tag.make key.number key.wireType).toNat_lt
    have hsplit : Tag.split (Tag.make key.number key.wireType) = .ok key :=
      Tag.split_eq_ok_iff.mpr ⟨hrange, rfl⟩
    dsimp only
    rw [if_pos hsmall, UInt32.toUInt32_toUInt64, hsplit]
    rfl

namespace UnknownField

theorem cut_eq_some_iff {bytes rest : Bytes} {field : UnknownField} :
    cut? bytes = some (field, rest) ↔ ∃ front, bytes = front ++ rest ∧ field.Frames front := by
  unfold cut?
  simp only [Option.bind_eq_bind, Option.bind_eq_some_iff, Option.map_eq_some_iff, Prod.mk.injEq]
  constructor
  · rintro ⟨⟨key, middle⟩, hkey, ⟨value, rest'⟩, hvalue, rfl, rfl⟩
    dsimp only at hvalue ⊢
    obtain ⟨hrange, front, hbytes, hdenotes⟩ := FieldKey.cut_eq_some_iff.mp hkey
    obtain ⟨hwire, payload, hmiddle, hframes⟩ := UnknownValue.cut_eq_some_iff.mp hvalue
    refine ⟨front ++ payload, ?_, ?_⟩
    · rw [hbytes, hmiddle, List.append_assoc]
    · have hbound := (Tag.inRange_iff key.number).mp hrange
      have hlow := key.wireType.value_lt
      have hraw : (Tag.make key.number key.wireType).toUInt64.toNat =
          key.number.toNat * 8 + key.wireType.value.toNat := by
        rw [UInt32.toNat_toUInt64, Tag.make_toNat hrange]
      refine .mk front payload ⟨key.number, value⟩ _ hdenotes ?_ ?_ ?_ ?_ hframes
      · rw [UInt64.le_iff_toNat_le, hraw]
        change _ ≤ 4294967295
        omega
      · rw [hraw]
        dsimp only
        omega
      · rw [UInt32.le_iff_toNat_le]
        exact hbound.1
      · rw [hraw, hwire]
        omega
  · rintro ⟨front, rfl, hframes⟩
    obtain ⟨key, payload, _, raw, hkey, hraw, hnumber, hpositive, hwire, hpayload⟩ := hframes
    rw [UInt64.le_iff_toNat_le] at hraw
    change raw.toNat ≤ 4294967295 at hraw
    rw [UInt32.le_iff_toNat_le] at hpositive
    change 1 ≤ field.number.toNat at hpositive
    have hrange : Tag.inRange field.number = true := by
      rw [Tag.inRange_iff]
      omega
    have htag : (Tag.make field.number field.value.wireType).toUInt64 = raw := by
      apply UInt64.toNat_inj.mp
      rw [UInt32.toNat_toUInt64, Tag.make_toNat hrange]
      omega
    refine ⟨(⟨field.number, field.value.wireType⟩, payload ++ rest), ?_, (field.value, rest), ?_,
      rfl, rfl⟩
    · refine FieldKey.cut_eq_some_iff.mpr ⟨hrange, key, List.append_assoc _ _ _, ?_⟩
      rw [htag]
      exact hkey
    · exact UnknownValue.cut_eq_some_iff.mpr ⟨rfl, payload, rfl, hpayload⟩

theorem Frames.ne_nil {bytes : Bytes} {field : UnknownField} (hframes : field.Frames bytes) :
    bytes ≠ [] := by
  obtain ⟨key, payload, _, _, _, _, _, _, _, hpayload⟩ := hframes
  exact List.append_ne_nil_of_right_ne_nil key hpayload.ne_nil

theorem inRange_of_cut {bytes rest : Bytes} {field : UnknownField}
    (hcut : cut? bytes = some (field, rest)) : Tag.inRange field.number = true := by
  unfold cut? at hcut
  simp only [Option.bind_eq_bind, Option.bind_eq_some_iff, Option.map_eq_some_iff,
    Prod.mk.injEq] at hcut
  obtain ⟨⟨key, middle⟩, hkey, ⟨value, rest'⟩, _, rfl, _⟩ := hcut
  exact (FieldKey.cut_eq_some_iff.mp hkey).1

theorem cuts : Cuts cut? := by
  intro bytes field rest h
  obtain ⟨front, hbytes, hframes⟩ := cut_eq_some_iff.mp h
  refine ⟨front, ?_, hbytes⟩
  obtain ⟨key, payload, _, raw, hkey, _, _, _, _, hpayload⟩ := hframes
  exact List.append_ne_nil_of_right_ne_nil key hpayload.ne_nil

end UnknownField

/-! ## Splitting -/

namespace Bytes

variable {α : Type}

/-- Cuts a byte string up from front to end, in at most `fuel` cuts. -/
def splitWithin? (cut : Bytes → Option (α × Bytes)) : (fuel : Nat) → Bytes → Option (List α)
  | _, [] => some []
  | 0, _ :: _ => none
  | fuel + 1, byte :: bytes => do
      let (value, rest) ← cut (byte :: bytes)
      let values ← splitWithin? cut fuel rest
      return value :: values

/-- Cuts a byte string up from front to end. As every cut takes at least one byte, the number of
bytes is fuel enough. -/
def split? (cut : Bytes → Option (α × Bytes)) (bytes : Bytes) : Option (List α) :=
  splitWithin? cut bytes.length bytes

variable {cut : Bytes → Option (α × Bytes)}

theorem splitWithin_fuel (hcuts : Cuts cut) {fuel fuel' : Nat} {bytes : Bytes}
    (hfuel : bytes.length ≤ fuel) (hfuel' : bytes.length ≤ fuel') :
    splitWithin? cut fuel bytes = splitWithin? cut fuel' bytes := by
  induction fuel generalizing fuel' bytes with
  | zero =>
      have hnil : bytes = [] := List.length_eq_zero_iff.mp (by omega)
      subst hnil
      cases fuel' <;> rfl
  | succ fuel ih =>
      cases bytes with
      | nil => cases fuel' <;> rfl
      | cons byte bytes =>
          cases fuel' with
          | zero => simp at hfuel'
          | succ fuel' =>
              simp only [splitWithin?]
              cases hcut : cut (byte :: bytes) with
              | none => rfl
              | some found =>
                  obtain ⟨value, rest⟩ := found
                  obtain ⟨front, hfront, heq⟩ := hcuts _ _ _ hcut
                  have hlength := congrArg List.length heq
                  have hpositive := List.length_pos_iff.mpr hfront
                  simp only [List.length_cons, List.length_append] at hlength hfuel hfuel'
                  simp only [Option.bind_eq_bind, Option.bind_some]
                  -- A cutter takes at least one byte, so that either fuel lasts for the rest.
                  rw [ih (by omega) (by omega : rest.length ≤ fuel')]

/-- A byte string that is not empty splits into the part in front and the parts of the rest. -/
theorem split_of_ne_nil (hcuts : Cuts cut) {bytes : Bytes} (hbytes : bytes ≠ []) :
    split? cut bytes =
      (cut bytes).bind fun found => (split? cut found.2).map (found.1 :: ·) := by
  obtain ⟨byte, rest, rfl⟩ := List.exists_cons_of_ne_nil hbytes
  simp only [split?, List.length_cons, splitWithin?]
  cases hcut : cut (byte :: rest) with
  | none => rfl
  | some found =>
      obtain ⟨value, after⟩ := found
      obtain ⟨front, hfront, heq⟩ := hcuts _ _ _ hcut
      have hlength := congrArg List.length heq
      have hpositive := List.length_pos_iff.mpr hfront
      simp only [List.length_cons, List.length_append] at hlength
      simp only [Option.bind_eq_bind, Option.bind_some]
      rw [splitWithin_fuel hcuts (by omega) (le_refl after.length)]
      cases splitWithin? cut after.length after <;> rfl

theorem split_append (hcuts : Cuts cut) {front rest : Bytes} {value : α} (hfront : front ≠ [])
    (hcut : cut (front ++ rest) = some (value, rest)) :
    split? cut (front ++ rest) = (split? cut rest).map (value :: ·) := by
  rw [split_of_ne_nil hcuts (List.append_ne_nil_of_left_ne_nil hfront rest), hcut]
  rfl

/-- Parts that are each cut off again split apart as they were joined. -/
theorem split_flatMap (hcuts : Cuts cut) (write : α → Bytes) (values : List α)
    (hwrite : ∀ value ∈ values, write value ≠ [] ∧
      ∀ rest, cut (write value ++ rest) = some (value, rest)) :
    split? cut (values.flatMap write) = some values := by
  induction values with
  | nil => rfl
  | cons value values ih =>
      obtain ⟨hne, hcut⟩ := hwrite value List.mem_cons_self
      rw [List.flatMap_cons, split_append hcuts hne (hcut _),
        ih fun other hother => hwrite other (List.mem_cons_of_mem value hother)]
      rfl

/-- What holds of every part that is cut off holds of all parts. -/
theorem forall_of_split (hcuts : Cuts cut) {holds : α → Prop}
    (hcut : ∀ bytes value rest, cut bytes = some (value, rest) → holds value)
    {bytes : Bytes} {values : List α} (hsplit : split? cut bytes = some values) :
    ∀ value ∈ values, holds value := by
  induction values generalizing bytes with
  | nil =>
      intro value hvalue
      cases hvalue
  | cons first values ih =>
      have hbytes : bytes ≠ [] := by
        rintro rfl
        cases hsplit
      rw [split_of_ne_nil hcuts hbytes] at hsplit
      simp only [Option.bind_eq_some_iff, Option.map_eq_some_iff] at hsplit
      obtain ⟨⟨found, rest⟩, hfound, values', hrest, h⟩ := hsplit
      cases h
      intro value hvalue
      rcases List.mem_cons.mp hvalue with rfl | hvalue
      · exact hcut _ _ _ hfound
      · exact ih hrest value hvalue

end Bytes

theorem splitsInto_iff {bytes : Bytes} {fields : List UnknownField} :
    SplitsInto bytes fields ↔ Bytes.split? UnknownField.cut? bytes = some fields := by
  constructor
  · intro h
    induction h with
    | nil => rfl
    | cons front rest field fields hfront _ ih =>
        have hcut : UnknownField.cut? (front ++ rest) = some (field, rest) :=
          UnknownField.cut_eq_some_iff.mpr ⟨front, rfl, hfront⟩
        rw [Bytes.split_append UnknownField.cuts hfront.ne_nil hcut, ih]
        rfl
  · intro h
    induction fields generalizing bytes with
    | nil =>
        by_cases hbytes : bytes = []
        · subst hbytes
          exact .nil
        · rw [Bytes.split_of_ne_nil UnknownField.cuts hbytes] at h
          simp only [Option.bind_eq_some_iff, Option.map_eq_some_iff] at h
          obtain ⟨_, _, _, _, h⟩ := h
          cases h
    | cons field fields ih =>
        have hbytes : bytes ≠ [] := by
          rintro rfl
          cases h
        rw [Bytes.split_of_ne_nil UnknownField.cuts hbytes] at h
        simp only [Option.bind_eq_some_iff, Option.map_eq_some_iff] at h
        obtain ⟨⟨found, rest⟩, hcut, fields', hrest, h⟩ := h
        cases h
        obtain ⟨front, rfl, hframes⟩ := UnknownField.cut_eq_some_iff.mp hcut
        exact .cons front rest _ _ hframes (ih hrest)

theorem SplitsInto.append {front back : Bytes} {before after : List UnknownField}
    (hfront : SplitsInto front before) (hback : SplitsInto back after) :
    SplitsInto (front ++ back) (before ++ after) := by
  induction hfront with
  | nil => exact hback
  | cons bytes rest field fields hframes _ ih =>
      rw [List.append_assoc]
      exact .cons bytes (rest ++ back) field (fields ++ after) hframes ih

/-- What follows records in a sequence of records is a sequence of records itself. -/
theorem SplitsInto.of_append {front back : Bytes} {before records : List UnknownField}
    (hfront : SplitsInto front before) (hwhole : SplitsInto (front ++ back) records) :
    ∃ after, SplitsInto back after := by
  induction hfront generalizing records with
  | nil => exact ⟨records, hwhole⟩
  | cons bytes rest field fields hframes _ ih =>
      rw [List.append_assoc] at hwhole
      have hcut : UnknownField.cut? (bytes ++ (rest ++ back)) = some (field, rest ++ back) :=
        UnknownField.cut_eq_some_iff.mpr ⟨bytes, rfl, hframes⟩
      rw [splitsInto_iff, Bytes.split_append UnknownField.cuts hframes.ne_nil hcut,
        Option.map_eq_some_iff] at hwhole
      obtain ⟨others, hothers, _⟩ := hwhole
      exact ih (splitsInto_iff.mpr hothers)

/-! ## Writing and splitting -/

/-- The number of bytes that a length can count. -/
def addressSpace : Nat := 18446744073709551616

theorem Varint.denotes_encode (value : UInt64) : Denotes (encode value) value := by
  have hdecode := decode_encode_append value []
  rwa [List.append_nil] at hdecode

namespace UnknownValue

@[simp]
theorem length_encode (value : UnknownValue) : value.encode.length = value.size := by
  cases value <;> simp only [encode, size, Varint.length_encode, Bytes.length_littleEndian,
    Varint.length_delimited]

/-- A payload is framed as it is written if its length can be counted. -/
theorem frames_encode_of_length {value : UnknownValue}
    (hlength : ∀ payload, value = .lengthDelimited payload → payload.length < addressSpace) :
    value.Frames value.encode := by
  cases value with
  | varint value => exact .varint _ value (Varint.denotes_encode value)
  | fixed32 value =>
      have hbound := value.toNat_lt
      have hword : UInt32.ofNat (Bytes.ofLittleEndian (Bytes.littleEndian 4 value.toNat)) =
          value := by
        rw [Bytes.ofLittleEndian_littleEndian]
        apply UInt32.toNat_inj.mp
        rw [UInt32.toNat_ofNat']
        change value.toNat % 4294967296 % 4294967296 = _
        omega
      have hframes := Frames.fixed32 (Bytes.littleEndian 4 value.toNat) (Bytes.length_littleEndian ..)
      rwa [hword] at hframes
  | fixed64 value =>
      have hbound := value.toNat_lt
      have hword : UInt64.ofNat (Bytes.ofLittleEndian (Bytes.littleEndian 8 value.toNat)) =
          value := by
        rw [Bytes.ofLittleEndian_littleEndian]
        apply UInt64.toNat_inj.mp
        rw [UInt64.toNat_ofNat']
        change value.toNat % 18446744073709551616 % 18446744073709551616 = _
        omega
      have hframes := Frames.fixed64 (Bytes.littleEndian 8 value.toNat) (Bytes.length_littleEndian ..)
      rwa [hword] at hframes
  | lengthDelimited payload =>
      refine .lengthDelimited _ payload _ (Varint.denotes_encode _) ?_
      rw [UInt64.toNat_ofNat']
      exact (Nat.mod_eq_of_lt (hlength payload rfl)).symm

theorem frames_encode {value : UnknownValue} (hsize : value.size < addressSpace) :
    value.Frames value.encode := by
  refine frames_encode_of_length fun payload hpayload => ?_
  rw [hpayload, size, Varint.delimitedSize] at hsize
  omega

theorem cut_encode {value : UnknownValue} (hsize : value.size < addressSpace) (rest : Bytes) :
    cut? value.wireType (value.encode ++ rest) = some (value, rest) :=
  cut_eq_some_iff.mpr ⟨rfl, value.encode, rfl, frames_encode hsize⟩

/-- Payloads of one wire type split apart as they were joined. -/
theorem split_encode {wireType : WireType} {values : List UnknownValue}
    (hvalues : ∀ value ∈ values, value.wireType = wireType ∧ value.size < addressSpace) :
    Bytes.split? (cut? wireType) (values.flatMap (·.encode)) = some values := by
  refine Bytes.split_flatMap (cuts wireType) _ values fun value hvalue => ?_
  obtain ⟨hwire, hsize⟩ := hvalues value hvalue
  refine ⟨(frames_encode hsize).ne_nil, fun rest => ?_⟩
  rw [← hwire]
  exact cut_encode hsize rest

end UnknownValue

namespace UnknownField

/-- A record that can be written and read back: its number is in range and its payload can be
measured. -/
def Sendable (field : UnknownField) : Prop :=
  Tag.inRange field.number = true ∧ field.value.size < addressSpace

theorem length_encode {field : UnknownField} (hnumber : Tag.inRange field.number = true) :
    field.encode.length = field.size := by
  rw [encode, size, List.length_append, Tag.length_encodeKey hnumber, UnknownValue.length_encode]

/-- A record is cut off what is written of it if its payload is framed as it is written. -/
theorem cut_encode_of_frames {field : UnknownField} (hnumber : Tag.inRange field.number = true)
    (hframes : field.value.Frames field.value.encode) (rest : Bytes) :
    cut? (field.encode ++ rest) = some (field, rest) := by
  have hkey : FieldKey.cut? (field.encode ++ rest) =
      some (⟨field.number, field.value.wireType⟩, field.value.encode ++ rest) := by
    refine FieldKey.cut_eq_some_iff.mpr ⟨hnumber, _, List.append_assoc _ _ _, ?_⟩
    exact Varint.denotes_encode _
  have hpayload : UnknownValue.cut? field.value.wireType (field.value.encode ++ rest) =
      some (field.value, rest) := UnknownValue.cut_eq_some_iff.mpr ⟨rfl, _, rfl, hframes⟩
  unfold cut?
  rw [hkey]
  simp only [Option.bind_eq_bind, Option.bind_some, hpayload, Option.map_some]

theorem cut_encode {field : UnknownField} (hfield : field.Sendable) (rest : Bytes) :
    cut? (field.encode ++ rest) = some (field, rest) :=
  cut_encode_of_frames hfield.1 (UnknownValue.frames_encode hfield.2) rest

theorem encode_ne_nil (field : UnknownField) : field.encode ≠ [] :=
  List.append_ne_nil_of_left_ne_nil (Tag.encodeKey_ne_nil field.number _) _

/-- Records split apart as they were joined. -/
theorem split_encode {fields : List UnknownField} (hfields : ∀ field ∈ fields, field.Sendable) :
    Bytes.split? cut? (fields.flatMap (·.encode)) = some fields :=
  Bytes.split_flatMap cuts _ fields fun field hfield =>
    ⟨field.encode_ne_nil, cut_encode (hfields field hfield)⟩

/-- Every record cut off a byte string has a number in range. -/
theorem inRange_of_split {bytes : Bytes} {fields : List UnknownField}
    (hsplit : Bytes.split? cut? bytes = some fields) :
    ∀ field ∈ fields, Tag.inRange field.number = true :=
  Bytes.forall_of_split cuts (fun _ _ _ hcut => inRange_of_cut hcut) hsplit

end UnknownField

end ProtoWire
