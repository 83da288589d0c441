import ProtoWire.Reader

/-! # Records

A byte string of records can be cut into them without knowing what the fields mean, as every tag
tells how its payload is framed. Sorting the records gives maps without an order of their own one
reproducible encoding.
-/

namespace ProtoWire.Records

open Reader

/-- Cuts the bytes of one record, key and payload, off the input. -/
def readRecord (_tag : UInt32) (state : Nat × List Bytes) : ReaderM (Nat × List Bytes) := do
  skipField (← get).lastTag
  let reader ← get
  let record := (reader.buffer.extract state.1 reader.position).toList
  return (reader.position, record :: state.2)

/-- The records of a byte string in order, or the error that keeps it from being cut. -/
def split (bytes : Bytes) : Except DecodeError (List Bytes) :=
  match readToLimit readRecord (0, []) (.ofBytes bytes {}) with
  | .ok (_, records) _ => .ok records.reverse
  | .error error _ => .error error

/-- The records of a byte string sorted by their bytes and joined; bytes that cannot be cut into
records stay as they are. -/
def sorted (bytes : Bytes) : Bytes :=
  match split bytes with
  | .ok records => (records.mergeSort Bytes.le).flatten
  | .error _ => bytes

end ProtoWire.Records
