/-! # Byte strings

A byte string is a list of octets, and fixed-width words are stored least significant octet
first. Text that arrives in pieces is a list of byte strings, read piece by piece.
-/

namespace ProtoWire

/-- A byte string, first byte first. -/
abbrev Bytes := List UInt8

namespace Bytes

/-- The `width` low octets of a number, least significant first. -/
def littleEndian : (width : Nat) → Nat → Bytes
  | 0, _ => []
  | width + 1, n => UInt8.ofNat n :: littleEndian width (n / 256)

/-- The number whose octets are given least significant first. -/
def ofLittleEndian : Bytes → Nat
  | [] => 0
  | byte :: rest => byte.toNat + 256 * ofLittleEndian rest

/-- The lexicographic order, byte by byte, a beginning coming before what it begins. -/
def le : Bytes → Bytes → Bool
  | [], _ => true
  | _ :: _, [] => false
  | a :: as, b :: bs => a < b || (a == b && le as bs)

@[simp]
theorem length_littleEndian (width n : Nat) : (littleEndian width n).length = width := by
  induction width generalizing n with
  | zero => rfl
  | succ width ih => simp [littleEndian, ih]

theorem ofLittleEndian_littleEndian (width n : Nat) :
    ofLittleEndian (littleEndian width n) = n % Nat.pow 256 width := by
  induction width generalizing n with
  | zero => simp [littleEndian, ofLittleEndian, Nat.mod_one]
  | succ width ih =>
      have hbyte : (UInt8.ofNat n).toNat = n % 256 := UInt8.toNat_ofNat'
      have hpow : Nat.pow 256 (width + 1) = 256 * Nat.pow 256 width := Nat.pow_succ'
      rw [littleEndian, ofLittleEndian, ih, hbyte, hpow, Nat.mod_mul]

end Bytes

/-- A byte string handed out in pieces, some of which may be empty. -/
abbrev Chunks := List Bytes

namespace Chunks

/-- The bytes of all pieces together. -/
def content (chunks : Chunks) : Bytes := chunks.flatten

/-- The number of bytes in all pieces together. -/
def remaining (chunks : Chunks) : Nat := chunks.content.length

/-- The first piece that holds a byte, or nothing when no byte is left. -/
def current : Chunks → Bytes
  | [] => []
  | [] :: rest => current rest
  | chunk :: _ => chunk

/-- The next byte, and the pieces after it. -/
def next? : Chunks → Option (UInt8 × Chunks)
  | [] => none
  | [] :: rest => next? rest
  | (byte :: chunk) :: rest => some (byte, chunk :: rest)

/-- The pieces without their first `count` bytes. -/
def advance : (count : Nat) → Chunks → Chunks
  | 0, chunks => chunks
  | _ + 1, [] => []
  | count + 1, chunk :: rest =>
      if chunk.length ≤ count + 1 then advance (count + 1 - chunk.length) rest
      else chunk.drop (count + 1) :: rest
termination_by _ chunks => chunks.length

/-- A byte string cut into pieces of `size` bytes, the last one possibly shorter. -/
def ofBytes (size : Nat) (bytes : Bytes) : Chunks :=
  if _hdone : bytes = [] ∨ size = 0 then [bytes]
  else bytes.take size :: ofBytes size (bytes.drop size)
termination_by bytes.length
decreasing_by
  have hpositive := List.length_pos_iff.mpr (not_or.mp _hdone).1
  have hsize := (not_or.mp _hdone).2
  simp only [List.length_drop]
  omega

end Chunks

end ProtoWire
