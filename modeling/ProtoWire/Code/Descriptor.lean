import ProtoWire.Code.Message
import ProtoWire.Declaration.Oneof
import ProtoWire.Descriptor

/-! # Descriptors of declared messages

The descriptor in the code of a message is written in terms of what the named types tell of
themselves: which field type they have, whether they are converted and, if they are oneofs, which
fields they have. Given that, the code stands for a descriptor.
-/

namespace ProtoWire.Code

open Declaration (AcceptedMember AcceptedOneof)
open Source (TypeText)

/-- What the types named in a declaration tell of themselves. -/
structure Scope where
  /-- The field type of the values of a type. -/
  fieldType : TypeText → FieldType
  /-- Whether values of a type go through a converter. -/
  isWrapped : TypeText → Bool
  /-- The fields of a oneof. -/
  members : TypeText → List StandardField

/-- The field that a member of a oneof is described as. -/
def memberField (scope : Scope) (member : AcceptedMember) : StandardField where
  number := member.number
  name := member.name.name
  type := scope.fieldType member.type
  wrapped := scope.isWrapped member.type

/-- The fields that a declared oneof tells of itself. -/
def oneofFields (scope : Scope) (oneof : AcceptedOneof) : List StandardField :=
  oneof.members.map (memberField scope)

/-- Whether a repeated field is packed. -/
def Packing.isPacked (scope : Scope) (packing : Packing) : Bool :=
  packing.dialect.packs (scope.fieldType packing.element) packing.explicit

/-- The entry that the code of an entry stands for. -/
def EntryCode.descriptor (scope : Scope) : EntryCode → EntryDescriptor
  | .singular number name type optional nonNull =>
      .standard {
        number, name, optional, nonNull
        type := scope.fieldType type
        wrapped := scope.isWrapped type }
  | .repeated number name packing =>
      .standard {
        number, name
        type := scope.fieldType packing.element
        repeated := true
        packed := packing.isPacked scope
        wrapped := scope.isWrapped packing.element }
  | .map number name => .standard { number, name, type := .message, repeated := true, map := true }
  | .oneof name type required => .oneof ⟨name, scope.members type, required⟩

/-- The descriptor that the code of a message stands for. -/
def MessageCode.descriptor (scope : Scope) (code : MessageCode) : MessageDescriptor where
  name := code.fullName
  dialect := code.dialect
  entries := code.entries.map (·.descriptor scope)

end ProtoWire.Code
