import ProtoWire.Message.Write

/-! # Encoding messages

Every top-level call is one encode pass. It works out the size of the message, which leaves sizes
remembered in the message, and then writes with the remembered sizes. A sink with too little room
is left untouched. A buffer of its own is made with room for the message. A writer is handed the
bytes once they are complete.
-/

namespace ProtoWire

/-! ## Buffers and writers -/

/-- A buffer that grows where it has too little room. -/
structure Buffer where
  bytes : Bytes
  capacity : Nat
deriving DecidableEq, Repr

namespace Buffer

/-- An empty buffer with room for a number of bytes. -/
def withCapacity (capacity : Nat) : Buffer := ⟨[], capacity⟩

/-- The buffer with more bytes put behind those that it holds. -/
def put (buffer : Buffer) (bytes : Bytes) : Buffer :=
  ⟨buffer.bytes ++ bytes, max buffer.capacity (buffer.bytes.length + bytes.length)⟩

end Buffer

/-- Why bytes are not written to the last. -/
inductive WriteFault where
  /-- A write took none of them. -/
  | nothingTaken
  /-- Any other fault, by its name. A write that is merely tried again has no fault. -/
  | other (name : String)
deriving DecidableEq, Repr

/-- How a write turns out. -/
inductive WriteAnswer where
  /-- It takes at most so many of the bytes. -/
  | takes (count : Nat)
  | interrupted
  | fails (name : String)
deriving DecidableEq, Repr

/-- What was written to a writer, and how its next writes turn out. Those behind them take all bytes
that they are given. -/
structure Writer where
  written : Bytes
  answers : List WriteAnswer
deriving DecidableEq, Repr

namespace Writer

/-- Writes bytes behind those that are written, until all are taken or a write fails. -/
def writeFrom (written : Bytes) : List WriteAnswer → Bytes → Except WriteFault Unit × Writer
  | answers, [] => (.ok (), ⟨written, answers⟩)
  | [], bytes => (.ok (), ⟨written ++ bytes, []⟩)
  | .takes 0 :: answers, _ => (.error .nothingTaken, ⟨written, answers⟩)
  | .takes count :: answers, bytes =>
      writeFrom (written ++ bytes.take count) answers (bytes.drop count)
  | .interrupted :: answers, bytes => writeFrom written answers bytes
  | .fails name :: answers, _ => (.error (.other name), ⟨written, answers⟩)

/-- Writes all of some bytes, or as many as are taken before a write fails. -/
def writeAll (writer : Writer) (bytes : Bytes) : Except WriteFault Unit × Writer :=
  writeFrom writer.written writer.answers bytes

end Writer

/-! ## Calls -/

/-- The answer of a top-level call, and the message it leaves behind. -/
structure Encoded (α : Type) where
  answer : α
  message : Message

namespace Catalog

variable (catalog : Catalog) (name : String)

/-- The size of a message body in a pass. -/
def bodySize (pass : Pass) (message : Message) : Nat :=
  message.bodySize catalog pass (catalog.schema name)

/-- The body of a message in a pass. -/
def writeBody (pass : Pass) (message : Message) : Bytes :=
  message.writeBody catalog pass (catalog.schema name)

/-- The message left behind when its size is worked out in a pass. -/
def settle (pass : Pass) (message : Message) : Message :=
  message.settle catalog pass (catalog.schema name)

/-- The body of a message with its length in front. -/
def writeDelimited (pass : Pass) (message : Message) : Bytes :=
  encodeLength (catalog.bodySize name pass message) ++ catalog.writeBody name pass message

/-- The size of a message as a call of its own. -/
def measure (pass : Nat) (message : Message) : Encoded Nat :=
  let settled := catalog.settle name (some pass) message
  ⟨catalog.bodySize name (some pass) settled, settled⟩

/-- The bytes of a message. -/
def encode (pass : Nat) (message : Message) : Encoded Bytes :=
  let settled := catalog.settle name (some pass) message
  ⟨catalog.writeBody name (some pass) settled, settled⟩

/-- The bytes of a message in a buffer that is made with its size, to be frozen as it is. -/
def encodeFrozen (pass : Nat) (message : Message) : Encoded Buffer :=
  let settled := catalog.settle name (some pass) message
  let buffer := Buffer.withCapacity (catalog.bodySize name (some pass) settled)
  ⟨buffer.put (catalog.writeBody name (some pass) settled), settled⟩

/-- Hands the bytes of a message on to a writer. -/
def encodeTo (pass : Nat) (writer : Writer) (message : Message) :
    Encoded (Except WriteFault Unit × Writer) :=
  let encoded := catalog.encode name pass message
  ⟨writer.writeAll encoded.answer, encoded.message⟩

/-- The bytes of a message with their length in front. -/
def encodeDelimited (pass : Nat) (message : Message) : Encoded Bytes :=
  let settled := catalog.settle name (some pass) message
  ⟨catalog.writeDelimited name (some pass) settled, settled⟩

/-- Writes a message into a sink with room for `capacity` bytes. -/
def encodeInto (pass capacity : Nat) (message : Message) : Encoded (Except EncodeError Bytes) :=
  let settled := catalog.settle name (some pass) message
  let required := catalog.bodySize name (some pass) settled
  if capacity < required then ⟨.error ⟨required, capacity⟩, settled⟩
  else ⟨.ok (catalog.writeBody name (some pass) settled), settled⟩

/-- Writes a message with its length in front into a sink with room for `capacity` bytes. -/
def encodeDelimitedInto (pass capacity : Nat) (message : Message) :
    Encoded (Except EncodeError Bytes) :=
  let settled := catalog.settle name (some pass) message
  let required := Varint.delimitedSize (catalog.bodySize name (some pass) settled)
  if capacity < required then ⟨.error ⟨required, capacity⟩, settled⟩
  else ⟨.ok (catalog.writeDelimited name (some pass) settled), settled⟩

/-- The message as a value of a field, outside of any pass. -/
def encodeValue (message : Message) : Encoded Bytes :=
  let settled := catalog.settle name none message
  ⟨catalog.writeDelimited name none settled, settled⟩

end Catalog

end ProtoWire
