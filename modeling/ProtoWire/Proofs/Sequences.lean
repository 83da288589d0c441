import ProtoWire.Primitive
import ProtoWire.Proofs.Restored
import ProtoWire.Proofs.Slices

/-! # Primitive values one after the other

What is written of a primitive value is read back as it is, and what stands behind it is left. So
values of any kinds are read back from what was written of them in a row.
-/

namespace ProtoWire

/-- A primitive value that can be written and read back: a tag is that of a field and all lengths
can be counted. -/
def Primitive.Sendable : Primitive → Prop
  | .tag value => ∃ number wireType, Tag.inRange number = true ∧ value = Tag.make number wireType
  | .length value => value < addressSpace
  | .scalar (.string text) => text.utf8ByteSize < addressSpace
  | .scalar (.bytes payload) => payload.length < addressSpace
  | _ => True

/-- The bytes of primitive values, one after the other. -/
def Primitive.encodeAll (primitives : List Primitive) : Bytes := primitives.flatMap (·.encode)

theorem Scalar.length_encode (scalar : Scalar) : scalar.encode.length = scalar.size := by
  rw [← scalar.encode_payload, UnknownValue.length_encode, scalar.size_payload]

/-- The payload of a scalar is framed as the scalar is written. -/
theorem Scalar.frames_encode {scalar : Scalar} (hsendable : (Primitive.scalar scalar).Sendable) :
    scalar.payload.Frames scalar.encode := by
  rw [← scalar.encode_payload]
  refine UnknownValue.frames_encode_of_length fun payload hpayload => ?_
  cases scalar with
  | string text =>
      cases hpayload
      exact hsendable
  | bytes held =>
      cases hpayload
      exact hsendable
  | _ => cases hpayload

open Reader

namespace Primitive

variable {levels : Nat} {reader : Reader} {rest : Bytes}

section Sound

variable (hsound : Sound levels reader)
include hsound

theorem answers_word {word : UInt64} (hwindow : reader.window = Varint.encode word ++ rest) :
    Answers readVarint64 reader (some (word, rest)) := by
  have hcut : Varint.cut? reader.window = some (word, rest) :=
    Varint.cut_eq_some_iff.mpr ⟨_, hwindow, Varint.denotes_encode word⟩
  rw [← hcut]
  exact follows_readVarint64 reader hsound

theorem answers_tag {number : UInt32} {wireType : WireType} (hnumber : Tag.inRange number = true)
    (hwindow : reader.window = Tag.encode (Tag.make number wireType) ++ rest) :
    Answers readTag reader (some (Tag.make number wireType, rest)) := by
  have hcut : FieldKey.cut? reader.window = some (⟨number, wireType⟩, rest) :=
    FieldKey.cut_eq_some_iff.mpr ⟨hnumber, _, hwindow, Varint.denotes_encode _⟩
  have hnonempty : reader.window ≠ [] := by
    intro hempty
    rw [hempty] at hcut
    cases hcut
  have htag := answers_readTag hsound hnonempty
  rw [hcut] at htag
  exact ⟨htag.1, _, htag.2⟩

theorem answers_scalar {scalar : Scalar} (hsendable : (Primitive.scalar scalar).Sendable)
    (hwindow : reader.window = scalar.encode ++ rest) :
    Answers scalar.type.read reader (some (scalar, rest)) := by
  have hcut : UnknownValue.cut? scalar.type.wireType reader.window = some (scalar.payload, rest) :=
    UnknownValue.cut_eq_some_iff.mpr
      ⟨scalar.wireType_payload, _, hwindow, Scalar.frames_encode hsendable⟩
  have hread := follows_readScalar scalar.type reader hsound
  simp only [UnknownValue.cutAs, hcut, Option.bind_some, scalar.interpret_payload,
    Option.map_some] at hread
  exact hread

/-- What is written of a primitive value is read back as the value, and nothing more is taken. -/
theorem answers_read {primitive : Primitive} (hsendable : primitive.Sendable)
    (hwindow : reader.window = primitive.encode ++ rest) :
    Answers primitive.type.read reader (some (primitive, rest)) := by
  cases primitive with
  | varint32 value =>
      have hread := ((answers_word hsound hwindow).map UInt64.toUInt32).map Primitive.varint32
      rwa [Option.map_some, UInt32.toUInt32_toUInt64] at hread
  | varint64 value => exact (answers_word hsound hwindow).map Primitive.varint64
  | length value =>
      have hread := ((answers_word hsound hwindow).map UInt64.toNat).map Primitive.length
      rwa [Option.map_some, UInt64.toNat_ofNat_of_lt' hsendable] at hread
  | tag tag =>
      obtain ⟨number, wireType, hnumber, rfl⟩ := hsendable
      exact (answers_tag hsound hnumber hwindow).map Primitive.tag
  | enumNumber value =>
      have hread := ((answers_word hsound hwindow).map UInt64.toUInt32).map fun word =>
        Primitive.enumNumber word.toInt32
      rwa [Option.map_some, Option.map_some, Varint.toInt32_signExtend] at hread
  | scalar scalar => exact (answers_scalar hsound hsendable hwindow).map Primitive.scalar

/-- One step: behind the bytes of a value, the reader stands before what follows them. -/
theorem read_written {primitive : Primitive} (hsendable : primitive.Sendable)
    (hwindow : reader.window = primitive.encode ++ rest) :
    ∃ last, primitive.type.read reader = .ok primitive (reader.moved primitive.encode.length last) ∧
      Sound levels (reader.moved primitive.encode.length last) ∧
      (reader.moved primitive.encode.length last).window = rest := by
  obtain ⟨hrest, last, hread⟩ := answers_read hsound hsendable hwindow
  rw [← moved_eq_past hsound hwindow] at hread
  exact ⟨last, hread, stands_behind hsound hwindow last⟩

end Sound

/-- All steps: values are read in the order in which they were written. -/
theorem read_all_written {primitives : List Primitive}
    (hsendable : ∀ primitive ∈ primitives, primitive.Sendable) (hsound : Sound levels reader)
    (hwindow : reader.window = encodeAll primitives ++ rest) :
    ∃ last, (primitives.map (·.type)).mapM PrimitiveType.read reader =
        .ok primitives (reader.moved (encodeAll primitives).length last) ∧
      (reader.moved (encodeAll primitives).length last).window = rest := by
  induction primitives generalizing reader with
  | nil => exact ⟨reader.lastTag, rfl, hwindow⟩
  | cons primitive primitives ih =>
      have hwritten : encodeAll (primitive :: primitives) =
          primitive.encode ++ encodeAll primitives := List.flatMap_cons
      rw [hwritten, List.append_assoc] at hwindow
      obtain ⟨tag, hfirst, hsound', hwindow'⟩ :=
        read_written hsound (hsendable primitive List.mem_cons_self) hwindow
      obtain ⟨last, hothers, hrest⟩ :=
        ih (fun other hother => hsendable other (List.mem_cons_of_mem _ hother)) hsound' hwindow'
      rw [moved_moved, ← List.length_append, ← hwritten] at hothers hrest
      refine ⟨last, ?_, hrest⟩
      rw [List.map_cons, List.mapM_cons, bind_ok hfirst, bind_ok hothers]
      rfl

/-- Reading undoes writing over whole sequences. Values of any kinds that are written one after the
other are read back in their order and bit for bit, whatever bytes follow them, and the reader is
left at the first of those bytes. So it is at the start of a buffer and anywhere within one. And a
scalar takes just the number of bytes that is counted for it. -/
theorem sequence_read_back (primitives : List Primitive)
    (hsendable : ∀ primitive ∈ primitives, primitive.Sendable) :
    (∀ (rest : Bytes) (config : ReaderConfig), ∃ after,
      (primitives.map (·.type)).mapM PrimitiveType.read
          (.ofBytes (encodeAll primitives ++ rest) config) = .ok primitives after ∧
        after.position = (encodeAll primitives).length ∧ after.window = rest) ∧
    (∀ levels reader rest, Sound levels reader → reader.window = encodeAll primitives ++ rest →
      ∃ last, (primitives.map (·.type)).mapM PrimitiveType.read reader =
          .ok primitives (reader.moved (encodeAll primitives).length last) ∧
        (reader.moved (encodeAll primitives).length last).window = rest) ∧
    ∀ scalar : Scalar, scalar.encode.length = scalar.size := by
  refine ⟨fun rest config => ?_, fun levels reader rest hsound hwindow =>
    read_all_written hsendable hsound hwindow, Scalar.length_encode⟩
  obtain ⟨last, hread, hrest⟩ :=
    read_all_written hsendable (sound_ofBytes _ config) (window_ofBytes _ config)
  exact ⟨_, hread, Nat.zero_add _, hrest⟩

/-- The greatest tag, the least numbers, a NaN that signals, the greatest length and an empty
payload are read back from between one another. -/
theorem extremes_read_back :
    let primitives : List Primitive := [.tag (Tag.make 536870911 .i32),
      .scalar (.int32 (-2147483648)), .scalar (.sint64 (-9223372036854775808)),
      .scalar (.float 0x7f800001), .length 18446744073709551615, .scalar (.bytes []),
      .enumNumber (-1), .scalar (.string "é"), .scalar (.bool true)]
    (∀ primitive ∈ primitives, primitive.Sendable) ∧
      encodeAll primitives = [0xfd, 0xff, 0xff, 0xff, 0x0f,
        0x80, 0x80, 0x80, 0x80, 0xf8, 0xff, 0xff, 0xff, 0xff, 0x01,
        0xff, 0xff, 0xff, 0xff, 0xff, 0xff, 0xff, 0xff, 0xff, 0x01,
        0x01, 0x00, 0x80, 0x7f, 0xff, 0xff, 0xff, 0xff, 0xff, 0xff, 0xff, 0xff, 0xff, 0x01, 0x00,
        0xff, 0xff, 0xff, 0xff, 0xff, 0xff, 0xff, 0xff, 0xff, 0x01, 0x02, 0xc3, 0xa9, 0x01] ∧
      ∃ after, (primitives.map (·.type)).mapM PrimitiveType.read
          (.ofBytes (encodeAll primitives ++ [0x80]) {}) = .ok primitives after ∧
        after.position = 54 ∧ after.window = [0x80] := by
  intro primitives
  have hsendable : ∀ primitive ∈ primitives, primitive.Sendable := by
    simp only [primitives, List.forall_mem_cons]
    exact ⟨⟨536870911, .i32, by decide, rfl⟩, trivial, trivial, trivial,
      (by decide : 18446744073709551615 < addressSpace), (by decide : 0 < addressSpace), trivial,
      (by decide : "é".utf8ByteSize < addressSpace), trivial,
      fun _ hprimitive => (List.not_mem_nil hprimitive).elim⟩
  have hwritten : (encodeAll primitives).length = 54 := by decide
  obtain ⟨after, hread, hposition, hwindow⟩ :=
    (sequence_read_back primitives hsendable).1 [0x80] {}
  exact ⟨hsendable, by decide, after, hread, hposition.trans hwritten, hwindow⟩

end Primitive

end ProtoWire
