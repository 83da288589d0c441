import ProtoWire.Primitive
import ProtoWire.Proofs.Slots
import ProtoWire.Proofs.Zigzag

/-! # Varints under another type

All kinds of primitives that are one varint are read from the same windows, in the same bytes and
with the same refusals. Only what is made of the word differs, so that what is written as one kind
can be read as another, and the bits that both kinds have come out the same.
-/

namespace ProtoWire

/-! ## What a word stands for -/

/-- Whether values of a kind are one varint each, of which any word will do. -/
def PrimitiveType.isVarint : PrimitiveType → Bool
  | .varint32 | .varint64 | .length | .enumNumber => true
  | .tag => false
  | .scalar type => type.wireType == .varint

/-- What a word stands for as a value of some kind. Kinds of 32 bits keep the low half, signed
numbers are in two's complement, a zigzag number is the one that zigzag sends to the word, and any
word but 0 is true. -/
def Primitive.Denotes (word : UInt64) : Primitive → Prop
  | .varint64 value | .scalar (.uint64 value) => value = word
  | .varint32 value | .scalar (.uint32 value) => value.toNat = word.toNat % 2 ^ 32
  | .length value => value = word.toNat
  | .enumNumber value | .scalar (.int32 value) =>
      value.toInt = (word.toNat : Int).bmod (2 ^ 32)
  | .scalar (.int64 value) => value.toInt = (word.toNat : Int).bmod (2 ^ 64)
  | .scalar (.sint32 value) => Varint.zigzag value.toInt = word.toNat % 2 ^ 32
  | .scalar (.sint64 value) => Varint.zigzag value.toInt = word.toNat
  | .scalar (.bool value) => value = true ↔ word ≠ 0
  | .tag _ | .scalar _ => False

namespace Varint

theorem toInt_toInt32 (word : UInt64) :
    word.toUInt32.toInt32.toInt = (word.toNat : Int).bmod (2 ^ 32) := by
  have hlow := BitVec.toInt_eq_toNat_bmod word.toUInt32.toBitVec
  change word.toUInt32.toInt32.toInt = (word.toUInt32.toNat : Int).bmod (2 ^ 32) at hlow
  rw [hlow, UInt64.toNat_toUInt32, Int.natCast_mod]
  exact Int.emod_bmod _ _

theorem toInt_toInt64 (word : UInt64) :
    word.toInt64.toInt = (word.toNat : Int).bmod (2 ^ 64) :=
  BitVec.toInt_eq_toNat_bmod word.toBitVec

/-- A sign-extended number is the number in two's complement. -/
theorem bmod_signExtend (number : Int32) :
    ((signExtend number).toNat : Int).bmod (2 ^ 64) = number.toInt := by
  rw [← toInt_toInt64, signExtend, Int64.toInt64_toUInt64, Int32.toInt_toInt64]

/-- The word of a number in two's complement is congruent to it, so that their low halves agree. -/
theorem toNat_toUInt64_emod (number : Int64) :
    (number.toUInt64.toNat : Int) % 2 ^ 32 = number.toInt % 2 ^ 32 := by
  have hword := toInt_toInt64 number.toUInt64
  rw [Int64.toInt64_toUInt64] at hword
  have hcongruent := @Int.bmod_emod (number.toUInt64.toNat : Int) (2 ^ 64)
  rw [← hword] at hcongruent
  omega

theorem toNat_toUInt64_bmod (number : Int64) :
    (number.toUInt64.toNat : Int).bmod (2 ^ 32) = number.toInt.bmod (2 ^ 32) := by
  have hword := toInt_toInt64 number.toUInt64
  rw [Int64.toInt64_toUInt64] at hword
  rw [hword, Int.bmod_bmod_of_dvd (pow_dvd_pow 2 (by decide))]

theorem zigzag_unzigzag_low (word : UInt64) :
    zigzag (unzigzag32 word.toUInt32).toInt = word.toNat % 2 ^ 32 := by
  rw [toInt_unzigzag32, zigzag_unzigzag, UInt64.toNat_toUInt32]

theorem zigzag_unzigzag_word (word : UInt64) : zigzag (unzigzag64 word).toInt = word.toNat := by
  rw [toInt_unzigzag64, zigzag_unzigzag]

end Varint

open Reader

namespace PrimitiveType

variable {type : PrimitiveType} {reader after : Reader}

/-- Where a word is read, so is the value of a kind that it stands for. -/
theorem read_of_ok {word : UInt64} (hvarint : type.isVarint = true)
    (hread : readVarint64 reader = .ok word after) :
    ∃ value : Primitive, type.read reader = .ok value after ∧ value.type = type ∧
      value.Denotes word := by
  have hlow : readVarint32 reader = .ok word.toUInt32 after := bind_ok hread _
  have hinner : ∀ {scalar : ScalarType} {value : Scalar}, scalar.read reader = .ok value after →
      (PrimitiveType.scalar scalar).read reader = .ok (.scalar value) after :=
    fun hscalar => bind_ok hscalar _
  cases type with
  | varint32 => exact ⟨_, bind_ok hlow _, rfl, word.toNat_toUInt32⟩
  | varint64 => exact ⟨_, bind_ok hread _, rfl, rfl⟩
  | length =>
      have hlength : readLength reader = .ok word.toNat after := bind_ok hread _
      exact ⟨_, bind_ok hlength _, rfl, rfl⟩
  | tag => cases hvarint
  | enumNumber => exact ⟨_, bind_ok hlow _, rfl, Varint.toInt_toInt32 word⟩
  | scalar scalar =>
      cases scalar with
      | bool => exact ⟨_, hinner (bind_ok hread _), rfl, bne_iff_ne⟩
      | int32 => exact ⟨_, hinner (bind_ok hlow _), rfl, Varint.toInt_toInt32 word⟩
      | int64 => exact ⟨_, hinner (bind_ok hread _), rfl, Varint.toInt_toInt64 word⟩
      | uint32 => exact ⟨_, hinner (bind_ok hlow _), rfl, word.toNat_toUInt32⟩
      | uint64 => exact ⟨_, hinner (bind_ok hread _), rfl, rfl⟩
      | sint32 => exact ⟨_, hinner (bind_ok hlow _), rfl, Varint.zigzag_unzigzag_low word⟩
      | sint64 => exact ⟨_, hinner (bind_ok hread _), rfl, Varint.zigzag_unzigzag_word word⟩
      | double | float | fixed32 | fixed64 | sfixed32 | sfixed64 | string | bytes => cases hvarint

/-- Where no word is read, neither is a value of any kind. -/
theorem read_of_error {error : DecodeError} (hvarint : type.isVarint = true)
    (hread : readVarint64 reader = .error error after) : type.read reader = .error error after := by
  have hlow : readVarint32 reader = .error error after := bind_error hread _
  have hlength : readLength reader = .error error after := bind_error hread _
  cases type with
  | varint64 => exact bind_error hread _
  | varint32 | enumNumber => exact bind_error hlow _
  | length => exact bind_error hlength _
  | tag => cases hvarint
  | scalar scalar =>
      cases scalar with
      | bool | int64 | uint64 | sint64 => exact bind_error (bind_error hread _) _
      | int32 | uint32 | sint32 => exact bind_error (bind_error hlow _) _
      | double | float | fixed32 | fixed64 | sfixed32 | sfixed64 | string | bytes => cases hvarint

section Sound

variable {levels : Nat} (hsound : Sound levels reader)
include hsound

/-- What is written of a word is read as what the word stands for, whatever the kind. -/
theorem read_encode {word : UInt64} {rest : Bytes} (hvarint : type.isVarint = true)
    (hwindow : reader.window = Varint.encode word ++ rest) :
    ∃ value : Primitive, type.read reader = .ok value (reader.skip (Varint.encode word).length) ∧
      value.type = type ∧ value.Denotes word :=
  read_of_ok hvarint (readVarint64_encode hsound hwindow)

/-- A number that is written in 32 bits is read in 64. -/
theorem read_extended {number : Int32} {rest : Bytes}
    (hwindow : reader.window = Varint.encode (Varint.signExtend number) ++ rest) :
    ∃ wide : Int64, wide.toInt = number.toInt ∧ (PrimitiveType.scalar .int64).read reader =
      .ok (.scalar (.int64 wide))
        (reader.skip (Varint.encode (Varint.signExtend number)).length) := by
  obtain ⟨value, hread, htype, hvalue⟩ :=
    read_encode hsound (rfl : isVarint (.scalar .int64) = true) hwindow
  match value, htype, hvalue with
  | .scalar (.int64 wide), _, hvalue =>
      exact ⟨wide, hvalue.trans (Varint.bmod_signExtend number), hread⟩

/-- A word that is written in 64 bits is read in 32 as its low half. -/
theorem read_low_half {word : UInt64} {rest : Bytes}
    (hwindow : reader.window = Varint.encode word ++ rest) :
    ∃ (low : UInt32) (signed : Int32), low.toNat = word.toNat % 2 ^ 32 ∧
      signed.toInt = (word.toNat : Int).bmod (2 ^ 32) ∧
      (PrimitiveType.scalar .uint32).read reader =
        .ok (.scalar (.uint32 low)) (reader.skip (Varint.encode word).length) ∧
      (PrimitiveType.scalar .int32).read reader =
        .ok (.scalar (.int32 signed)) (reader.skip (Varint.encode word).length) := by
  obtain ⟨value, hread, htype, hvalue⟩ :=
    read_encode hsound (rfl : isVarint (.scalar .uint32) = true) hwindow
  obtain ⟨value', hread', htype', hvalue'⟩ :=
    read_encode hsound (rfl : isVarint (.scalar .int32) = true) hwindow
  match value, htype, hvalue, value', htype', hvalue' with
  | .scalar (.uint32 low), _, hlow, .scalar (.int32 signed), _, hsigned =>
      exact ⟨low, signed, hlow, hsigned, hread, hread'⟩

end Sound

end PrimitiveType

open Varint in
/-- One varint means the same to all kinds that are one. Where the window begins with a varint,
every kind is read from just its bytes, as what the number in them stands for without the bits
beyond the sixty-fourth; where it does not, every kind is refused alike and nothing is taken. So a number
written in 32 bits or as that of an enumeration is read unchanged in 64, and one written in 64 bits
is read in 32 as its low half. Zigzag is undone by its inverse and undoes it, in either width, and
both are the shifts and inversions of bits that they are known as. -/
theorem varints_retyped {levels : Nat} {reader : Reader} (hsound : Sound levels reader) :
    (∀ front last rest, reader.window = front ++ last :: rest → front.length < maxLength →
      (∀ byte ∈ front, 0x80 ≤ byte) → last < 0x80 →
        ∀ type : PrimitiveType, type.isVarint = true → ∃ value : Primitive,
          type.read reader = .ok value (reader.skip (front.length + 1)) ∧ value.type = type ∧
          value.Denotes (UInt64.ofNat (groupsValue (front ++ [last])))) ∧
    ((∀ byte ∈ reader.window.take maxLength, 0x80 ≤ byte) →
      ∀ type : PrimitiveType, type.isVarint = true → type.read reader =
        .error (if maxLength ≤ reader.window.length then .malformedVarint
          else .truncated (reader.window.length + 1) reader.window.length) reader) ∧
    (∀ (number : Int32) (written rest : Bytes),
      written = (Primitive.scalar (.int32 number)).encode ∨
        written = (Primitive.enumNumber number).encode →
      reader.window = written ++ rest →
        ∃ wide : Int64, wide.toInt = number.toInt ∧ (PrimitiveType.scalar .int64).read reader =
          .ok (.scalar (.int64 wide)) (reader.skip written.length)) ∧
    (∀ (number : Int) (written rest : Bytes),
      (∃ value : UInt64, number = value.toNat ∧
        written = (Primitive.scalar (.uint64 value)).encode) ∨
      (∃ value : Int64, number = value.toInt ∧
        written = (Primitive.scalar (.int64 value)).encode) →
      reader.window = written ++ rest →
        ∃ (low : UInt32) (signed : Int32), (low.toNat : Int) = number % 2 ^ 32 ∧
          signed.toInt = number.bmod (2 ^ 32) ∧
          (PrimitiveType.scalar .uint32).read reader =
            .ok (.scalar (.uint32 low)) (reader.skip written.length) ∧
          (PrimitiveType.scalar .int32).read reader =
            .ok (.scalar (.int32 signed)) (reader.skip written.length)) ∧
    ((Function.LeftInverse unzigzag32 zigzag32 ∧ Function.RightInverse unzigzag32 zigzag32) ∧
      Function.LeftInverse unzigzag64 zigzag64 ∧ Function.RightInverse unzigzag64 zigzag64) ∧
    (∀ number : Int32, zigzag32 number = ((number <<< 1) ^^^ (number >>> 31)).toUInt32) ∧
    (∀ number : Int64, zigzag64 number = ((number <<< 1) ^^^ (number >>> 63)).toUInt64) ∧
    (∀ word : UInt32, unzigzag32 word = (word >>> 1).toInt32 ^^^ -(word &&& 1).toInt32) ∧
    (∀ word : UInt64, unzigzag64 word = (word >>> 1).toInt64 ^^^ -(word &&& 1).toInt64) := by
  refine ⟨?_, ?_, ?_, ?_, ⟨⟨unzigzag32_zigzag32, zigzag32_unzigzag32⟩, unzigzag64_zigzag64,
    zigzag64_unzigzag64⟩, zigzag32_eq_bits, zigzag64_eq_bits, unzigzag32_eq_bits,
    unzigzag64_eq_bits⟩
  · intro front last rest hwindow hlength hfront hlast type hvarint
    have hhigh : ∀ byte ∈ front, ¬ byte < 0x80 := fun byte hbyte =>
      UInt8.not_lt.mpr (hfront byte hbyte)
    have hdecode := decode_groups hhigh hlast hlength rest
    rw [← hwindow] at hdecode
    exact PrimitiveType.read_of_ok hvarint (readVarint64_ok hsound hdecode)
  · intro hhigh type hvarint
    have hdecode := decode_eq_error_iff.mpr
      ⟨fun byte hbyte => UInt8.not_lt.mpr (hhigh byte hbyte), rfl⟩
    exact PrimitiveType.read_of_error hvarint (readVarint64_error hsound hdecode)
  · rintro number written rest (rfl | rfl) hwindow <;>
      exact PrimitiveType.read_extended hsound hwindow
  · rintro number written rest (⟨value, rfl, rfl⟩ | ⟨value, rfl, rfl⟩) hwindow
    · obtain ⟨low, signed, hlow, hsigned, hreads⟩ := PrimitiveType.read_low_half hsound hwindow
      exact ⟨low, signed, by rw [hlow]; rfl, hsigned, hreads⟩
    · obtain ⟨low, signed, hlow, hsigned, hreads⟩ := PrimitiveType.read_low_half hsound hwindow
      refine ⟨low, signed, ?_, hsigned.trans (toNat_toUInt64_bmod value), hreads⟩
      rw [← toNat_toUInt64_emod, hlow]
      rfl

/-- A negative number of 32 bits takes ten bytes. It is read as it is in 64 bits, and as zigzag it
is another negative number. -/
theorem minus_five_retyped :
    let written := (Primitive.scalar (.int32 (-5))).encode
    let reader := Reader.ofBytes (written ++ [0x2a]) {}
    Sound 100 reader ∧ written = [0xfb, 0xff, 0xff, 0xff, 0xff, 0xff, 0xff, 0xff, 0xff, 0x01] ∧
      (∃ wide : Int64, wide.toInt = -5 ∧ (PrimitiveType.scalar .int64).read reader =
        .ok (.scalar (.int64 wide)) (reader.skip 10)) ∧
      ∃ value : Int32, Varint.zigzag value.toInt = 4294967291 ∧
        (PrimitiveType.scalar .sint32).read reader =
          .ok (.scalar (.sint32 value)) (reader.skip 10) := by
  intro written reader
  have hsound : Sound 100 reader := sound_ofBytes _ {}
  have hwritten : written = [0xfb, 0xff, 0xff, 0xff, 0xff, 0xff, 0xff, 0xff, 0xff, 0x01] := by
    decide
  have hwindow : reader.window = written ++ [0x2a] := window_ofBytes _ {}
  have hlength : written.length = 10 := congrArg List.length hwritten
  obtain ⟨hkinds, -, hextended, -⟩ := varints_retyped hsound
  obtain ⟨wide, hwide, hread⟩ := hextended (-5) written [0x2a] (.inl rfl) hwindow
  rw [hlength] at hread
  rw [hwritten] at hwindow
  have hhigh : ∀ byte ∈ (0xfb :: List.replicate 8 0xff : Bytes), 0x80 ≤ byte := by
    refine List.forall_mem_cons.mpr ⟨by decide, fun byte hbyte => ?_⟩
    rw [List.eq_of_mem_replicate hbyte]
    decide
  obtain ⟨value, hread', htype, hvalue⟩ := hkinds _ 0x01 [0x2a] hwindow (by decide) hhigh
    (by decide) (.scalar .sint32) rfl
  have hword : (UInt64.ofNat (Varint.groupsValue
      [0xfb, 0xff, 0xff, 0xff, 0xff, 0xff, 0xff, 0xff, 0xff, 0x01])).toNat % 2 ^ 32 =
      4294967291 := by decide
  refine ⟨hsound, hwritten, ⟨wide, hwide, hread⟩, ?_⟩
  match value, htype, hvalue with
  | .scalar (.sint32 value), _, hvalue => exact ⟨value, hvalue.trans hword, hread'⟩

end ProtoWire
