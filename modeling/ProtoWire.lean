import ProtoWire.Json.Declaration
import ProtoWire.Json.Descriptor
import ProtoWire.Json.Primitive
import ProtoWire.Json.Value
import ProtoWire.Message.Edit
import ProtoWire.Message.Encode
import ProtoWire.Proofs.Bounds
import ProtoWire.Proofs.Canonical
import ProtoWire.Proofs.Consumed
import ProtoWire.Proofs.Converted
import ProtoWire.Proofs.Delivered
import ProtoWire.Proofs.Described
import ProtoWire.Proofs.Enumerations
import ProtoWire.Proofs.Generated
import ProtoWire.Proofs.Introduced
import ProtoWire.Proofs.Keys
import ProtoWire.Proofs.Limits
import ProtoWire.Proofs.Maps
import ProtoWire.Proofs.Oneofs
import ProtoWire.Proofs.Packed
import ProtoWire.Proofs.Relay
import ProtoWire.Proofs.Replayed
import ProtoWire.Proofs.Reproduced
import ProtoWire.Proofs.Retyped
import ProtoWire.Proofs.Sequences
import ProtoWire.Proofs.Shortest
import ProtoWire.Proofs.Sinks
import ProtoWire.Proofs.Skipped
import ProtoWire.Proofs.Slices
import ProtoWire.Proofs.Streams
import ProtoWire.Proofs.Tagged
import ProtoWire.Proofs.Termination
import ProtoWire.Proofs.Truncated
import ProtoWire.Proofs.Variants
import ProtoWire.Records
import ProtoWire.Samples
import ProtoWire.Stream
