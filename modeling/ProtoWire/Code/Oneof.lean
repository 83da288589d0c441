import ProtoWire.Code.Text
import ProtoWire.Declaration.Oneof

/-! # The code of a oneof

One implementation: the descriptors of the members, and methods that decode the member with a tag,
encode the member that is set, tell its size and tell its number. Members are in order of
declaration, so of two with the same tag the first is decoded.
-/

namespace ProtoWire.Code

open Declaration (AcceptedMember AcceptedOneof)
open Source (quoted)

/-- The descriptor of a member. -/
def memberDescriptor (member : AcceptedMember) : String :=
  standardField [wrappedSetting member.type] member.number member.name.name
    (asValueType member.type ++ "::FIELD_TYPE")

/-- The constant for the tag of the member at a place. -/
def memberConstant (place : Nat) (member : AcceptedMember) : TagConstant :=
  ⟨tagName place, member.number, some member.type⟩

namespace Oneof

/-- A member as a variant of its oneof. -/
def variant (oneof : AcceptedOneof) (member : AcceptedMember) : String :=
  oneof.name.text ++ "::" ++ member.name.text

/-- The arm that decodes the member at a place. -/
def decodeArm (oneof : AcceptedOneof) (place : Nat) (member : AcceptedMember) : String :=
  tagName place ++ "=>" ++ variant oneof member ++ "(" ++ decodeCall member.type ++ "),"

/-- The arm that encodes a member. -/
def encodeArm (oneof : AcceptedOneof) (member : AcceptedMember) : String :=
  variant oneof member ++ "(value)=>"
    ++ block ("writer.write_tag(" ++ numberText member.number ++ ","
      ++ asValueType member.type ++ "::WIRE_TYPE);"
      ++ asTrait member.type.text "::protoforge::codec::ProtoEncode"
      ++ "::encode_value(value,writer);")

/-- The arm that tells the size of a member. -/
def sizeArm (oneof : AcceptedOneof) (member : AcceptedMember) : String :=
  variant oneof member ++ "(value)=>"
    ++ block ("::protoforge::wire::encoded_key_len(" ++ numberText member.number ++ ")+"
      ++ asTrait member.type.text "::protoforge::codec::ProtoEncode" ++ "::encoded_len(value)")

/-- The arm that tells the number of a member. -/
def numberArm (oneof : AcceptedOneof) (member : AcceptedMember) : String :=
  variant oneof member ++ "(_)=>" ++ numberText member.number

/-- The method that decodes the member with a tag, if there is one. -/
def decodeText (oneof : AcceptedOneof) : String :=
  unreachableArms ++ "fndecode_variant(tag:u32," ++ readerParameter ++ ")->"
    ++ resultType "::core::option::Option<Self>"
    ++ block (
      String.join (oneof.members.mapIdx fun place member => (memberConstant place member).text)
      ++ "letvalue=matchtag"
      ++ block (String.join (oneof.members.mapIdx (decodeArm oneof))
        ++ "_=>return" ++ ok absentValue ++ ",")
      ++ ";" ++ ok (presentValue "value"))

/-- The item of the code of a oneof. -/
def items (oneof : AcceptedOneof) : List String := [
  implementation "::protoforge::codec::ProtoOneof" oneof.name
    ("constFIELDS:&'static[::protoforge::field::StandardField]=&["
      ++ commaSeparated (oneof.members.map memberDescriptor) ++ "];"
      ++ decodeText oneof
      ++ writingMethod "encode_variant"
      ++ block ("matchself" ++ block (String.join (oneof.members.map (encodeArm oneof))))
      ++ "fnencoded_variant_len(&self)->usize"
      ++ block ("matchself" ++ block (String.join (oneof.members.map (sizeArm oneof))))
      ++ "fnvariant_number(&self)->u32"
      ++ block ("matchself" ++ block (commaSeparated (oneof.members.map (numberArm oneof)))))]

end Oneof

end ProtoWire.Code
