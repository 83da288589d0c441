import ProtoWire.Message.Decode

/-! # Streams of messages

A stream delivers bytes in pieces of its own choice until it is closed or breaks. Messages are read
from it either one by one, each after its length, or as all that is left of the stream. No more
bytes are taken than belong to the message.
-/

namespace ProtoWire

/-- How a stream ends once it delivers no more bytes: it is closed, or every further read fails with
a fault. -/
inductive StreamEnd where
  | closed
  | broken (fault : StreamFault)
deriving DecidableEq, Repr

/-- The part of a stream that is not yet taken: the pieces still to be delivered, and bytes that
never will be. -/
structure Stream where
  chunks : Chunks
  undelivered : Bytes
  ending : StreamEnd
deriving DecidableEq, Repr

/-- A read from a stream: a value or an error, and in both cases the stream afterwards. -/
abbrev StreamM := EStateM DecodeError Stream

namespace Stream

/-- A stream over a byte string, in pieces of `chunk` bytes, that is reset at offset `failAt` or,
when the byte string is shorter, at its end. In pieces of no bytes nothing is ever delivered. -/
def ofBytes (bytes : Bytes) (chunk failAt : Option Nat) : Stream :=
  let reach := if chunk = some 0 then 0 else failAt.getD bytes.length
  let delivered := bytes.take reach
  { chunks := match chunk with
      | some size => Chunks.ofBytes size delivered
      | none => [delivered]
    undelivered := bytes.drop reach
    ending := if failAt.isSome then .broken .connectionReset else .closed }

/-- The number of bytes not yet taken, delivered or not. -/
def left (stream : Stream) : Nat := stream.chunks.remaining + stream.undelivered.length

/-- What one read may take: at most `count` bytes of the current piece. No bytes mean that the
stream is closed. -/
def readSome (count : Nat) : StreamM Bytes := fun stream =>
  match stream.chunks.current, stream.ending with
  | [], .closed => .ok [] stream
  | [], .broken fault => .error (.stream fault) stream
  | chunk, _ =>
      .ok (chunk.take count) { stream with chunks := stream.chunks.advance (min count chunk.length) }

/-- Reads one byte. -/
def readByte : StreamM UInt8 := do
  match ← readSome 1 with
  | byte :: _ => return byte
  | [] => throw (.stream .unexpectedEnd)

/-- Reads a length byte by byte, at most `left` more of them. -/
def readLengthFrom : (left : Nat) → (scratch : Bytes) → StreamM UInt64
  | 0, _ => throw .malformedVarint
  | left + 1, scratch => do
      let byte ← readByte
      if byte < 0x80 then
        match Varint.decode (scratch ++ [byte]) with
        | .ok (value, _) => return value
        | .error error => throw error
      else readLengthFrom left (scratch ++ [byte])

/-- Reads the length in front of a message. -/
def readLength : StreamM UInt64 := readLengthFrom Varint.maxLength []

/-- Takes bytes up to the end of the stream, but at most `count`, in at most `fuel` reads. -/
def takeFrom : (fuel count : Nat) → (taken : Bytes) → StreamM Bytes
  | 0, _, taken => return taken
  | fuel + 1, count, taken => do
      if count = 0 then return taken
      match ← readSome count with
      | [] => return taken
      | piece => takeFrom fuel (count - piece.length) (taken ++ piece)

/-- Takes bytes up to the end of the stream, but at most `count`. As every read takes at least one
byte, one read more than there are bytes is enough. -/
def takeUpTo (count : Nat) : StreamM Bytes := do
  takeFrom ((← get).chunks.remaining + 1) count []

end Stream

namespace Catalog

/-- Ends a read from a stream with the outcome of decoding the bytes taken. -/
def decodeTaken (catalog : Catalog) (name : String) (config : ReaderConfig) (bytes : Bytes) :
    StreamM Message :=
  match catalog.decode name bytes config with
  | .ok message => return message
  | .error error => throw error

/-- Reads one message after its length, leaving the stream after it. -/
def decodeNext (catalog : Catalog) (name : String) (config : ReaderConfig) : StreamM Message := do
  let size := (← Stream.readLength).toNat
  if config.maxMessageSize < size then throw (.messageTooLarge size config.maxMessageSize)
  let bytes ← Stream.takeUpTo size
  if bytes.length < size then throw (.truncated size bytes.length)
  catalog.decodeTaken name config bytes

/-- Reads a stream to its end as one message, taking at most one byte more than is allowed. -/
def decodeRest (catalog : Catalog) (name : String) (config : ReaderConfig) : StreamM Message := do
  let bytes ← Stream.takeUpTo (config.maxMessageSize + 1)
  if config.maxMessageSize < bytes.length then
    throw (.messageTooLarge bytes.length config.maxMessageSize)
  catalog.decodeTaken name config bytes

end Catalog

end ProtoWire
