import ProtoWire.Code.Text
import ProtoWire.Declaration.Enumeration
import ProtoWire.Schema

/-! # The code of an enumeration

The mapping between numbers and variants, and implementations that all go through it. Variants are
in order of declaration, so of two with the same number the first stands for it.
-/

namespace ProtoWire.Code.Enumeration

open Declaration (AcceptedEnumeration Identifier)
open Source (quoted)

/-- A variant of an enumeration. -/
def variant (enumeration : AcceptedEnumeration) (name : Identifier) : String :=
  enumeration.name.text ++ "::" ++ name.text

/-- The arms from numbers to variants. -/
def fromArms (enumeration : AcceptedEnumeration) : String :=
  String.join (enumeration.known.map fun (name, value) =>
    signedText value ++ "=>" ++ variant enumeration name ++ ",")

/-- The arms from variants to numbers. -/
def toArms (enumeration : AcceptedEnumeration) : String :=
  String.join (enumeration.known.map fun (name, value) =>
    variant enumeration name ++ "=>" ++ signedText value ++ ",")

/-- An enumeration as an implementation of the mapping. -/
def mapping : String := asTrait "Self" "::protoforge::codec::ProtoEnum"

/-- The items of the code of an enumeration. -/
def items (enumeration : AcceptedEnumeration) : List String :=
  let name := enumeration.name
  let other := variant enumeration enumeration.unrecognized
  [ implementation "::protoforge::codec::ProtoEnum" name
      ("constNAME:&'staticstr=" ++ quoted name.name ++ ";"
        ++ unreachableArms ++ "fnfrom_i32(value:i32)->Self"
        ++ block ("matchvalue" ++ block (fromArms enumeration ++ "other=>" ++ other ++ "(other),"))
        ++ "fnto_i32(&self)->i32"
        ++ block ("matchself" ++ block (toArms enumeration ++ other ++ "(value)=>*value,"))
        ++ "fnis_recognized(&self)->bool"
        ++ block ("!::core::matches!(self," ++ other ++ "(_))")),
    typeImplementation name "Varint" "Enum",
    decodeImplementation name ("reader.read_enum().map(" ++ mapping ++ "::from_i32)"),
    encodeImplementation name ("writer.write_enum(" ++ mapping ++ "::to_i32(self));")
      "::protoforge::codec::encoded_enum_len(self)",
    defaultCheckImplementation name (mapping ++ "::to_i32(self)==0"),
    implementation "::core::default::Default" name
      ("fndefault()->Self" ++ block (mapping ++ "::from_i32(0)"))]

/-- The enumeration that the code stands for. An arm is taken if none before it fits, so the variants
are those of the arms, in their order. -/
def schema (enumeration : AcceptedEnumeration) : EnumSchema where
  name := enumeration.name.name
  variants := enumeration.known.map fun (name, value) => ⟨name.name, value⟩

end ProtoWire.Code.Enumeration
