import ProtoWire.Declaration.Message

/-! # Declared oneofs

A oneof is declared by variants that hold one type each and carry a number. The first faulty
variant is reported: by its shape, a missing number or a number that no field may carry. Numbers
may occur more than once.
-/

namespace ProtoWire.Declaration

open Source (TypeText)

/-- A member of a oneof that code can be written for. -/
structure AcceptedMember where
  name : Identifier
  type : TypeText
  number : UInt32
deriving Repr

/-- A oneof that code can be written for. -/
structure AcceptedOneof where
  name : Identifier
  members : List AcceptedMember
deriving Repr

/-- Accepts a variant as a member of a oneof. -/
def Variant.toMember (variant : Variant) : Except Fault AcceptedMember :=
  match variant.shape.single? with
  | none => .error .memberShape
  | some type =>
      match readOptions MemberOptions.table {} variant.attributes with
      | .error faults => .error (.attribute faults)
      | .ok options =>
          match options.number with
          | none => .error .missingMemberNumber
          | some number => do
              checkNumber number
              return ⟨variant.name, type, number⟩

/-- Accepts the declaration of a oneof, or reports its first fault. -/
def acceptOneof (declaration : Declaration) : Except Fault AcceptedOneof :=
  match declaration.body with
  | .variants variants => do
      return ⟨declaration.name, ← variants.mapM Variant.toMember⟩
  | _ => .error .oneofNotEnumeration

end ProtoWire.Declaration
