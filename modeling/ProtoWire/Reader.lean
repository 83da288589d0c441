import ProtoWire.UnknownField

/-! # Bounded reading

A reader walks over one buffer. Nested payloads push the offset of their end; every read is bounded
by the innermost end, and at that end the next tag is 0. A failed read keeps the state it failed
in, so limits pushed by a call that fails stay pushed.
-/

namespace ProtoWire

/-- Limits on what is decoded. -/
structure ReaderConfig where
  /-- The greatest depth of nested messages. -/
  recursionLimit : Nat := 100
  /-- The greatest size of a message taken from a stream, 2 GiB minus one byte unless set. -/
  maxMessageSize : Nat := 2147483647
deriving DecidableEq, Repr

/-- A cursor over a buffer. -/
structure Reader where
  buffer : Array UInt8
  position : Nat
  /-- The end of the innermost payload. -/
  limit : Nat
  /-- The ends of the enclosing payloads, innermost first. -/
  limits : List Nat
  lastTag : UInt32
  /-- The number of messages being read inside one another. -/
  depth : Nat
  config : ReaderConfig
deriving DecidableEq, Repr

/-- A read: a value or an error, and in both cases the reader afterwards. -/
abbrev ReaderM := EStateM DecodeError Reader

namespace Reader

/-- A reader at the start of a byte string. -/
def ofBytes (bytes : Bytes) (config : ReaderConfig) : Reader where
  buffer := bytes.toArray
  position := 0
  limit := bytes.length
  limits := []
  lastTag := 0
  depth := 0
  config := config

/-- The number of bytes before the innermost end. -/
def remaining (reader : Reader) : Nat := reader.limit - reader.position

/-- The next bytes before the innermost end, at most `count` of them. -/
def ahead (reader : Reader) (count : Nat) : Bytes :=
  (reader.buffer.extract reader.position
    (reader.position + min count reader.remaining)).toList

/-- All bytes before the innermost end. -/
def window (reader : Reader) : Bytes := reader.ahead reader.remaining

/-- The reader `count` bytes further on. -/
def skip (reader : Reader) (count : Nat) : Reader :=
  { reader with position := reader.position + count }

/-- Reads a varint. -/
def readVarint64 : ReaderM UInt64 := fun reader =>
  match Varint.decode (reader.ahead Varint.maxLength) with
  | .ok (value, count) => .ok value (reader.skip count)
  | .error error => .error error reader

/-- Reads a varint and keeps its low 32 bits. -/
def readVarint32 : ReaderM UInt32 := return (← readVarint64).toUInt32

/-- Reads a tag, or 0 at the innermost end. -/
def readTag : ReaderM UInt32 := do
  let reader ← get
  if reader.limit ≤ reader.position then
    set { reader with lastTag := 0 }
    return 0
  let raw ← readVarint64
  if 4294967295 < raw then
    throw (.invalidFieldNumber (UInt32.ofNat (min (raw / 8).toNat 4294967295)))
  match Tag.split raw.toUInt32 with
  | .error error => throw error
  | .ok _ =>
      modify fun reader => { reader with lastTag := raw.toUInt32 }
      return raw.toUInt32

/-- Reads exactly `count` bytes. -/
def readExactly (count : Nat) : ReaderM Bytes := fun reader =>
  if reader.remaining < count then .error (.truncated count reader.remaining) reader
  else .ok (reader.ahead count) (reader.skip count)

/-- Reads a 32-bit word, least significant byte first. -/
def readFixed32 : ReaderM UInt32 := return UInt32.ofNat (Bytes.ofLittleEndian (← readExactly 4))

/-- Reads a 64-bit word, least significant byte first. -/
def readFixed64 : ReaderM UInt64 := return UInt64.ofNat (Bytes.ofLittleEndian (← readExactly 8))

/-- Reads a length, without a check against the input. -/
def readLength : ReaderM Nat := return (← readVarint64).toNat

/-- Reads a length and that many bytes. -/
def readBytes : ReaderM Bytes := do readExactly (← readLength)

/-- Reads a length and that many bytes of UTF-8. -/
def readString : ReaderM String := do
  match String.fromUTF8? ⟨(← readBytes).toArray⟩ with
  | some text => return text
  | none => throw .invalidUtf8

/-- Bounds the reads that follow to the next `length` bytes. -/
def pushLimit (length : Nat) : ReaderM Unit := fun reader =>
  if reader.remaining < length then .error (.truncated length reader.remaining) reader
  else .ok () { reader with
    limits := reader.limit :: reader.limits
    limit := reader.position + length }

/-- The reader with the bound in force before the last `pushLimit`, or the end of the buffer. -/
def withoutLimit (reader : Reader) : Reader :=
  match reader.limits with
  | [] => { reader with limit := reader.buffer.size }
  | limit :: limits => { reader with limit, limits }

/-- Restores the bound in force before the last `pushLimit`, or the end of the buffer. -/
def popLimit : ReaderM Unit := modify withoutLimit

/-- Runs a read one message deeper. The depth is restored whether or not it fails. -/
def oneDeeper (body : ReaderM α) : ReaderM α := fun reader =>
  match body { reader with depth := reader.depth + 1 } with
  | .ok value reader => .ok value { reader with depth := reader.depth - 1 }
  | .error error reader => .error error { reader with depth := reader.depth - 1 }

/-- Reads a length and a message body of that length. The last tag is restored when the body is
read to its end. -/
def readMessage (body : ReaderM α) : ReaderM α := do
  let length ← readLength
  let reader ← get
  if reader.config.recursionLimit ≤ reader.depth then
    throw (.recursionLimitExceeded reader.config.recursionLimit)
  pushLimit length
  let message ← oneDeeper body
  popLimit
  modify fun after => { after with lastTag := reader.lastTag }
  return message

/-- Reads records up to the innermost end, in at most `fuel` steps, with `record` reading the
payload after each tag. -/
def readRecords (record : UInt32 → σ → ReaderM σ) : (fuel : Nat) → σ → ReaderM σ
  | 0, state => return state
  | fuel + 1, state => do
      let tag ← readTag
      if tag = 0 then return state
      readRecords record fuel (← record tag state)

/-- Reads all records up to the innermost end. As every tag takes at least one byte, one step more
than the number of bytes that remain is enough. -/
def readToLimit (record : UInt32 → σ → ReaderM σ) (state : σ) : ReaderM σ := do
  readRecords record ((← get).remaining + 1) state

/-- What reading one occurrence of a repeated field gave: the elements read, and the failure that
ended it, if any. -/
structure Occurrence (α : Type) where
  elements : List α
  failure : Option DecodeError
  reader : Reader

/-- Reads elements up to the innermost end, in at most `fuel` steps. As every element takes at
least one byte, the number of bytes left in the buffer is fuel enough. -/
def readRun (element : ReaderM α) : (fuel : Nat) → (read : List α) → Reader → Occurrence α
  | 0, read, reader => ⟨read.reverse, none, reader⟩
  | fuel + 1, read, reader =>
      if reader.position < reader.limit then
        match element reader with
        | .ok value reader => readRun element fuel (value :: read) reader
        | .error error reader => ⟨read.reverse, some error, reader⟩
      else ⟨read.reverse, none, reader⟩

/-- Whether the last tag announces a length-delimited record. -/
def lastTagIsDelimited (reader : Reader) : Bool :=
  match Tag.split reader.lastTag with
  | .ok key => key.wireType == .len
  | .error _ => false

/-- Reads the length of a packed run and bounds the reads that follow by it. Elements of a fixed
width have to fill the run exactly. -/
def enterPackedRun (element : WireType) : ReaderM Unit := do
  let length ← readLength
  match element.fixedWidth? with
  | some width =>
      if length % width ≠ 0 then throw (.invalidPackedLength width length)
      pushLimit length
  | none => pushLimit length

/-- Reads one occurrence of a repeated field whose elements have wire type `element`: a packed run
when elements can be packed and the record is length-delimited, otherwise one element. -/
def readOccurrence (element : WireType) (body : ReaderM α) (reader : Reader) : Occurrence α :=
  if element != .len && reader.lastTagIsDelimited then
    match enterPackedRun element reader with
    | .error error reader => ⟨[], some error, reader⟩
    | .ok () reader =>
        let run := readRun body (reader.buffer.size - reader.position) [] reader
        match run.failure with
        | none => { run with reader := run.reader.withoutLimit }
        | some _ => run
  else
    match body reader with
    | .ok value reader => ⟨[value], none, reader⟩
    | .error error reader => ⟨[], some error, reader⟩

/-- The elements of one occurrence of a repeated field. -/
def readRepeated (element : WireType) (body : ReaderM α) : ReaderM (List α) := fun reader =>
  let occurrence := readOccurrence element body reader
  match occurrence.failure with
  | none => .ok occurrence.elements occurrence.reader
  | some error => .error error occurrence.reader

/-- Captures the payload of the record announced by `tag`. -/
def readUnknown (tag : UInt32) : ReaderM UnknownField := do
  match Tag.split tag with
  | .error error => throw error
  | .ok key =>
      match key.wireType with
      | .varint => return ⟨key.number, .varint (← readVarint64)⟩
      | .i64 => return ⟨key.number, .fixed64 (← readFixed64)⟩
      | .len => return ⟨key.number, .lengthDelimited (← readBytes)⟩
      | .i32 => return ⟨key.number, .fixed32 (← readFixed32)⟩

/-- Passes over `count` bytes. -/
def skipExactly (count : Nat) : ReaderM Unit := fun reader =>
  if reader.remaining < count then .error (.truncated count reader.remaining) reader
  else .ok () (reader.skip count)

/-- Passes over the payload of the record announced by `tag`. -/
def skipField (tag : UInt32) : ReaderM Unit := do
  match Tag.split tag with
  | .error error => throw error
  | .ok key =>
      match key.wireType with
      | .varint => let _ ← readVarint64
      | .i64 => skipExactly 8
      | .len => skipExactly (← readLength)
      | .i32 => skipExactly 4

end Reader

end ProtoWire
