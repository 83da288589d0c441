import ProtoWire.Bytes
import ProtoWire.Error

/-! # Variable-length integers

A varint is a number in base 128, least significant group first, with the high bit set on every
byte but the last. At most ten bytes are read and bits beyond the sixty-fourth are dropped. The
zigzag map sends signed numbers of small magnitude to small unsigned numbers.
-/

namespace ProtoWire.Varint

/-- The greatest number of bytes a varint takes. -/
def maxLength : Nat := 10

/-- The greatest number of bytes that the varint of a 32-bit word takes. -/
def maxLength32 : Nat := 5

/-- Base-128 groups of a number, with at most `more` groups after the first one. -/
def encodeGroups : (more : Nat) → Nat → Bytes
  | 0, n => [UInt8.ofNat n]
  | more + 1, n =>
      if n < 128 then [UInt8.ofNat n]
      else UInt8.ofNat (n % 128 + 128) :: encodeGroups more (n / 128)

/-- The varint of a 64-bit word. -/
def encode (value : UInt64) : Bytes := encodeGroups (maxLength - 1) value.toNat

/-- The number of bytes in the varint of a word: seven significant bits a byte, at least one. -/
def size (value : UInt64) : Nat :=
  let significantBits := (value ||| 1).toNat.log2 + 1
  (significantBits + 6) / 7

/-- The number denoted by the leading groups, and their count, when one of the first `groups`
bytes ends the varint. -/
def decodeGroups? : (groups : Nat) → Bytes → Option (Nat × Nat)
  | 0, _ => none
  | _ + 1, [] => none
  | groups + 1, byte :: rest =>
      if byte < 0x80 then some (byte.toNat, 1)
      else (decodeGroups? groups rest).map fun (value, count) =>
        (byte.toNat % 128 + 128 * value, count + 1)

/-- The word denoted by the varint in front of `bytes`, and the number of bytes it takes. -/
def decode (bytes : Bytes) : Except DecodeError (UInt64 × Nat) :=
  match decodeGroups? maxLength bytes with
  | some (value, count) => .ok (UInt64.ofNat value, count)
  | none =>
      if maxLength ≤ bytes.length then .error .malformedVarint
      else .error (.truncated (bytes.length + 1) bytes.length)

/-- Like `decode`, keeping the low 32 bits. -/
def decode32 (bytes : Bytes) : Except DecodeError (UInt32 × Nat) :=
  (decode bytes).map fun (value, count) => (value.toUInt32, count)

/-- Collects the bytes of a varint one by one, at most `left` more of them. -/
def gather : (left : Nat) → (scratch : Bytes) → Chunks → Except DecodeError UInt64 × Chunks
  | 0, _, chunks => (.error .malformedVarint, chunks)
  | left + 1, scratch, chunks =>
      match chunks.next? with
      | none => (.error (.truncated (scratch.length + 1) scratch.length), chunks)
      | some (byte, rest) =>
          if byte < 0x80 then ((decode (scratch ++ [byte])).map (·.1), rest)
          else gather left (scratch ++ [byte]) rest

/-- Whether a piece is sure to hold the whole varint or enough bytes to refuse it. -/
def isConclusive (chunk : Bytes) : Bool :=
  maxLength ≤ chunk.length || chunk.getLast?.any (· < 0x80)

/-- Reads a varint from pieces: at once when the current piece is conclusive, otherwise byte by byte.
The pieces after the call are returned beside the outcome. -/
def decodeChunks (chunks : Chunks) : Except DecodeError UInt64 × Chunks :=
  if isConclusive chunks.current then
    match decode chunks.current with
    | .ok (value, count) => (.ok value, chunks.advance count)
    | .error error => (.error error, chunks)
  else gather maxLength [] chunks

/-- Like `decodeChunks`, keeping the low 32 bits. -/
def decodeChunks32 (chunks : Chunks) : Except DecodeError UInt32 × Chunks :=
  let (outcome, rest) := decodeChunks chunks
  (outcome.map (·.toUInt32), rest)

/-- The length of a payload together with the varint of its length in front of it. -/
def delimitedSize (length : Nat) : Nat := size (UInt64.ofNat length) + length

/-- A payload with the varint of its length in front of it. -/
def delimited (payload : Bytes) : Bytes := encode (UInt64.ofNat payload.length) ++ payload

/-- Zigzag: 0, -1, 1, -2, … become 0, 1, 2, 3, …. -/
def zigzag (n : Int) : Nat := if 0 ≤ n then 2 * n.toNat else 2 * (-n).toNat - 1

/-- The number that zigzag sends to `n`. -/
def unzigzag (n : Nat) : Int := if n % 2 = 0 then n / 2 else -((n + 1) / 2 : Nat)

/-- Zigzag on 32-bit words. -/
def zigzag32 (n : Int32) : UInt32 := UInt32.ofNat (zigzag n.toInt)

/-- The inverse of `zigzag32`. -/
def unzigzag32 (n : UInt32) : Int32 := Int32.ofInt (unzigzag n.toNat)

/-- Zigzag on 64-bit words. -/
def zigzag64 (n : Int64) : UInt64 := UInt64.ofNat (zigzag n.toInt)

/-- The inverse of `zigzag64`. -/
def unzigzag64 (n : UInt64) : Int64 := Int64.ofInt (unzigzag n.toNat)

/-- A signed 32-bit number sign-extended to a 64-bit word. -/
def signExtend (n : Int32) : UInt64 := n.toInt64.toUInt64

theorem unzigzag_zigzag (n : Int) : unzigzag (zigzag n) = n := by
  unfold zigzag unzigzag
  split <;> split <;> omega

theorem zigzag_unzigzag (n : Nat) : zigzag (unzigzag n) = n := by
  unfold zigzag unzigzag
  split <;> split <;> omega

end ProtoWire.Varint
