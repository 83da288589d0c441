import ProtoWire.Proofs.Streams

/-! # Varints however they are delivered

A varint is decoded from a buffer, from pieces or from a stream. Each of the three finds the same
word in the same bytes and refuses the same bytes. They differ in what is gone after a refusal, and
a stream tells bytes that are missing as its own end.
-/

namespace ProtoWire

namespace Varint

variable {α β : Type} {chunks : Chunks}

/-- The number of bytes that decoding takes from pieces, given the outcome for all of their bytes:
those of the varint, and after a refusal none if the current piece was enough for it, otherwise all
that were looked at. -/
def taken (chunks : Chunks) : Except DecodeError (α × Nat) → Nat
  | .ok (_, count) => count
  | .error _ =>
      if maxLength ≤ chunks.current.length then 0 else min maxLength chunks.remaining

/-- Decoding from pieces has the outcome that it has for all of their bytes, and takes as many of
them as it should. -/
structure Delivers (chunks : Chunks) (pieces : Except DecodeError α × Chunks)
    (whole : Except DecodeError (α × Nat)) : Prop where
  outcome_eq : pieces.1 = whole.map (·.1)
  taken_le : taken chunks whole ≤ chunks.remaining
  left_eq : pieces.2.content = chunks.content.drop (taken chunks whole)

/-- What is made of the word does not change where it is found. -/
theorem Delivers.map {pieces : Except DecodeError α × Chunks}
    {whole : Except DecodeError (α × Nat)} (hdelivers : Delivers chunks pieces whole)
    (change : α → β) :
    Delivers chunks (pieces.1.map change, pieces.2)
      (whole.map fun found => (change found.1, found.2)) := by
  have hsame : taken chunks (whole.map fun found => (change found.1, found.2)) =
      taken chunks whole := by
    cases whole <;> rfl
  refine ⟨?_, hsame ▸ hdelivers.taken_le, hsame ▸ hdelivers.left_eq⟩
  rw [hdelivers.outcome_eq]
  cases whole <;> rfl

theorem delivers_decodeChunks (chunks : Chunks) :
    Delivers chunks (decodeChunks chunks) (decode chunks.content) := by
  cases hdecode : decode chunks.content with
  | ok found =>
      obtain ⟨after, hdecoded, hafter⟩ := decodeChunks_ok hdecode
      rw [hdecoded]
      exact ⟨rfl, (decode_count hdecode).2, hafter⟩
  | error error =>
      obtain ⟨after, hdecoded, hafter⟩ := decodeChunks_error hdecode
      rw [hdecoded]
      refine ⟨rfl, ?_, ?_⟩
      · rw [taken]
        split
        · exact Nat.zero_le _
        · exact Nat.min_le_right _ _
      · rw [hafter, taken]
        split
        · rfl
        · -- Past the end there is nothing more to drop.
          rw [Chunks.remaining, List.drop_eq_drop_min]

theorem delivers_decodeChunks32 (chunks : Chunks) :
    Delivers chunks (decodeChunks32 chunks) (decode32 chunks.content) :=
  (delivers_decodeChunks chunks).map UInt64.toUInt32

theorem decode32_eq_error_iff {bytes : Bytes} {error : DecodeError} :
    decode32 bytes = .error error ↔ decode bytes = .error error := by
  rw [decode32]
  cases decode bytes with
  | ok found => exact iff_of_false nofun nofun
  | error other => simp only [Except.map, Except.error.injEq]

/-- Bytes that are refused are too many, or they end too early. -/
theorem refusal {bytes : Bytes} {error : DecodeError} (hdecode : decode bytes = .error error) :
    (maxLength ≤ bytes.length ∧ error = .malformedVarint) ∨
      (bytes.length < maxLength ∧ error = .truncated (bytes.length + 1) bytes.length) := by
  have herror := (decode_eq_error_iff.mp hdecode).2
  by_cases hlong : maxLength ≤ bytes.length
  · rw [if_pos hlong] at herror
    exact .inl ⟨hlong, herror⟩
  · rw [if_neg hlong] at herror
    exact .inr ⟨not_le.mp hlong, herror⟩

end Varint

namespace Stream

open Varint (decode maxLength)

variable {stream : Stream}

/-- A length that is refused as malformed is refused from a stream too. -/
theorem readLength_of_malformed (hdecode : decode stream.content = .error .malformedVarint) :
    readLength stream = .error .malformedVarint (stream.past maxLength) := by
  obtain ⟨hlong, -⟩ | ⟨-, hcut⟩ := Varint.refusal hdecode
  · exact readLength_malformed hlong (Varint.decode_eq_error_iff.mp hdecode).1
  · cases hcut

/-- Where a buffer lacks bytes, a closed stream has come to its end. -/
theorem readLength_of_truncated (hclosed : stream.ending = .closed) {needed remaining : Nat}
    (hdecode : decode stream.content = .error (.truncated needed remaining)) :
    readLength stream = .error (.stream .unexpectedEnd) (stream.past stream.content.length) := by
  obtain ⟨-, hlong⟩ | ⟨hshort, -⟩ := Varint.refusal hdecode
  · cases hlong
  · have hhigh := (Varint.decode_eq_error_iff.mp hdecode).1
    rw [List.take_of_length_le hshort.le] at hhigh
    rw [readLength_at_end hshort hhigh, hclosed]
    rfl

end Stream

namespace Varint

/-- A varint is the same from a buffer, from pieces and from a stream that is closed behind its
bytes. From pieces, words of either width come out as they do from all the bytes together, and so do
the refusals; those are told apart by whether there are ten bytes. From a stream, the bytes of the
varint are taken; ten bytes that are no varint are refused just as from a buffer, and exactly where
a buffer lacks bytes the stream has ended too early. -/
theorem delivered_alike {bytes : Bytes} {chunks : Chunks} {stream : Stream}
    (hchunks : chunks.content = bytes) (hstream : stream.content = bytes)
    (hclosed : stream.ending = .closed) :
    Delivers chunks (decodeChunks chunks) (decode bytes) ∧
      Delivers chunks (decodeChunks32 chunks) (decode32 bytes) ∧
      (∀ error, decode bytes = .error error ∨ decode32 bytes = .error error →
        error = if maxLength ≤ bytes.length then .malformedVarint
          else .truncated (bytes.length + 1) bytes.length) ∧
      (∀ value count, decode bytes = .ok (value, count) →
        Stream.readLength stream = .ok value (stream.past count)) ∧
      (decode bytes = .error .malformedVarint ↔
        ∃ after, Stream.readLength stream = .error .malformedVarint after) ∧
      ((∃ needed remaining, decode bytes = .error (.truncated needed remaining)) ↔
        ∃ after, Stream.readLength stream = .error (.stream .unexpectedEnd) after) := by
  subst hchunks
  refine ⟨delivers_decodeChunks chunks, delivers_decodeChunks32 chunks, ?_, ?_, ?_⟩
  · rintro error (hdecode | hdecode)
    · exact (decode_eq_error_iff.mp hdecode).2
    · exact (decode_eq_error_iff.mp (decode32_eq_error_iff.mp hdecode)).2
  · intro value count hdecode
    exact Stream.readLength_eq (hstream ▸ hdecode)
  rw [← hstream]
  -- Every outcome of decoding fixes what the stream gives, so that the cases exclude each other.
  cases hdecode : decode stream.content with
  | ok found =>
      rw [Stream.readLength_eq hdecode]
      simp
  | error error =>
      obtain ⟨-, rfl⟩ | ⟨-, rfl⟩ := refusal hdecode
      · rw [Stream.readLength_of_malformed hdecode]
        simp
      · rw [Stream.readLength_of_truncated hclosed hdecode]
        simp

/-- Ten bytes, the last with bits to spare, in pieces that cut them everywhere: the word is found in
them, and the byte behind them is left. -/
theorem ten_bytes_delivered :
    let bytes : Bytes := [0xfe, 0xff, 0xff, 0xff, 0xff, 0xff, 0xff, 0xff, 0xff, 0x7f, 0x2a]
    let chunks : Chunks := [[], [0xfe], [0xff, 0xff, 0xff, 0xff], [], [0xff, 0xff, 0xff, 0xff],
      [0x7f, 0x2a]]
    let stream : Stream := ⟨[bytes.take 9, bytes.drop 9], [], .closed⟩
    chunks.content = bytes ∧ stream.content = bytes ∧ stream.ending = .closed ∧
      (decodeChunks chunks).1 = .ok 18446744073709551614 ∧
      (decodeChunks32 chunks).1 = .ok 4294967294 ∧ (decodeChunks32 chunks).2.content = [0x2a] ∧
      Stream.readLength stream = .ok 18446744073709551614 (stream.past 10) := by
  intro bytes chunks stream
  have hdecode : decode bytes = .ok (18446744073709551614, 10) := by decide
  have hdecode32 : decode32 bytes = .ok (4294967294, 10) := by decide
  have hchunks : chunks.content = bytes := rfl
  have hstream : stream.content = bytes := rfl
  obtain ⟨hwide, hnarrow, -, hread, -⟩ := delivered_alike hchunks hstream rfl
  have houtcome := hwide.outcome_eq
  have houtcome32 := hnarrow.outcome_eq
  have hleft := hnarrow.left_eq
  rw [hdecode] at houtcome
  rw [hdecode32] at houtcome32 hleft
  exact ⟨hchunks, hstream, rfl, houtcome, houtcome32, hleft, hread _ _ hdecode⟩

end Varint

end ProtoWire
