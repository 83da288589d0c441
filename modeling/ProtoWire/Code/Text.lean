import ProtoWire.Code.Message
import ProtoWire.Source.Quoted

/-! # The text of code

Code is written as its tokens, one right after the other. An item of code refers to the library of
readers, writers and descriptors by full paths, so that it means the same wherever it stands.
-/

namespace ProtoWire.Code

open Declaration (Identifier)
open Source (TypeText quoted)

/-! ## Common forms -/

/-- Code in curly brackets. -/
def block (body : String) : String := "\x7b" ++ body ++ "\x7d"

/-- Pieces of code with commas between them. -/
def commaSeparated (pieces : List String) : String := ",".intercalate pieces

/-- The text of a number of 32 bits. -/
def numberText (number : UInt32) : String := toString number.toNat ++ "u32"

/-- The text of a signed number of 32 bits. -/
def signedText (number : Int32) : String := toString number.toInt ++ "i32"

/-- The text of a truth value. -/
def flagText (flag : Bool) : String := if flag then "true" else "false"

/-- A type as an implementation of a trait. -/
def asTrait (type trait : String) : String := "<" ++ type ++ "as" ++ trait ++ ">"

/-- A type as a type of values. -/
def asValueType (type : TypeText) : String := asTrait type.text "::protoforge::codec::ProtoType"

/-- The call that decodes a value of a type. -/
def decodeCall (type : TypeText) : String :=
  asTrait type.text "::protoforge::codec::ProtoDecode" ++ "::decode_value(reader)?"

/-- An implementation of a trait. -/
def implementation (trait : String) (name : Identifier) (body : String) : String :=
  "impl" ++ trait ++ "for" ++ name.text ++ block body

/-- An optional value that is present. -/
def presentValue (value : String) : String := "::core::option::Option::Some(" ++ value ++ ")"

/-- An optional value that is absent. -/
def absentValue : String := "::core::option::Option::None"

/-- A successful result. -/
def ok (value : String) : String := "::core::result::Result::Ok(" ++ value ++ ")"

/-- The type of the results of decoding. -/
def resultType (type : String) : String :=
  "::core::result::Result<" ++ type ++ ",::protoforge::DecodeError>"

/-- The parameter that is read from. -/
def readerParameter : String := "reader:&mut::protoforge::MessageReader,"

/-- The head of a method that writes. -/
def writingMethod (name : String) : String :=
  "fn" ++ name ++ "<B:::protoforge::bytes::BufMut>"
    ++ "(&self,writer:&mut::protoforge::MessageWriter<'_,B>)"

/-- The attribute of a method that is expanded where it is called. -/
def inlined : String := "#[inline]"

/-- The attribute of a method whose match may have arms that are never reached. -/
def unreachableArms : String := "#[allow(unreachable_patterns)]"

/-- The implementation that tells wire type and field type. -/
def typeImplementation (name : Identifier) (wireType fieldType : String) : String :=
  implementation "::protoforge::codec::ProtoType" name
    ("constWIRE_TYPE:::protoforge::wire::WireType=::protoforge::wire::WireType::" ++ wireType
      ++ ";constFIELD_TYPE:::protoforge::field::FieldType=::protoforge::field::FieldType::"
      ++ fieldType ++ ";")

/-- The implementation that decodes a value. -/
def decodeImplementation (name : Identifier) (body : String) : String :=
  implementation "::protoforge::codec::ProtoDecode" name
    (inlined ++ "fndecode_value(" ++ readerParameter ++ ")->" ++ resultType "Self" ++ block body)

/-- The implementation that encodes a value and tells its size. -/
def encodeImplementation (name : Identifier) (write size : String) : String :=
  implementation "::protoforge::codec::ProtoEncode" name
    (inlined ++ writingMethod "encode_value" ++ block write
      ++ inlined ++ "fnencoded_len(&self)->usize" ++ block size)

/-- The implementation that tells whether a value is the default. -/
def defaultCheckImplementation (name : Identifier) (body : String) : String :=
  implementation "::protoforge::codec::IsProtoDefault" name
    (inlined ++ "fnis_proto_default(&self)->bool" ++ block body)

/-- A constant for a tag. -/
def TagConstant.text (constant : TagConstant) : String :=
  let number := numberText constant.number
  "const" ++ constant.name ++ ":u32=::protoforge::wire::make_tag(" ++ number ++ ","
    ++ (match constant.type with
      | some type => asValueType type ++ "::WIRE_TYPE,"
      | none => "::protoforge::wire::WireType::Len")
    ++ ");"

/-- A field in a descriptor. -/
def standardField (settings : List String) (number : UInt32) (name fieldType : String) : String :=
  "::protoforge::field::StandardField"
    ++ block (String.join (settings.map (· ++ ","))
      ++ "..::protoforge::field::StandardField::new(" ++ numberText number ++ "," ++ quoted name
      ++ "," ++ fieldType ++ ",)")

/-- The setting that tells whether values of a type are converted. -/
def wrappedSetting (type : TypeText) : String := "wrapped:" ++ asValueType type ++ "::WRAPPED"

/-! ## Messages -/

/-- The text of a dialect. -/
def dialectText : Dialect → String
  | .proto2 => "::protoforge::field::Syntax::Proto2"
  | .proto3 => "::protoforge::field::Syntax::Proto3"

/-- The call that settles whether a field is packed. -/
def Packing.text (packing : Packing) : String :=
  "::protoforge::field::resolve_packed(" ++ dialectText packing.dialect ++ ","
    ++ asValueType packing.element ++ "::FIELD_TYPE,"
    ++ (match packing.explicit with
      | some packed => presentValue (flagText packed)
      | none => absentValue)
    ++ ",)"

/-- An entry of a descriptor. -/
def EntryCode.text : EntryCode → String
  | .singular number name type optional nonNull =>
      "::protoforge::field::Field::Standard(" ++ standardField [
        "optional:" ++ flagText optional, "non_null:" ++ flagText nonNull, wrappedSetting type]
        number name (asValueType type ++ "::FIELD_TYPE") ++ ")"
  | .repeated number name packing =>
      "::protoforge::field::Field::Standard(" ++ standardField [
        "repeated:true", "packed:" ++ packing.text, wrappedSetting packing.element]
        number name (asValueType packing.element ++ "::FIELD_TYPE") ++ ")"
  | .map number name =>
      "::protoforge::field::Field::Standard(" ++ standardField ["repeated:true", "map:true"]
        number name "::protoforge::field::FieldType::Message" ++ ")"
  | .oneof name type required =>
      "::protoforge::field::Field::Oneof(::protoforge::field::Oneof"
        ++ block ("name:" ++ quoted name ++ ",fields:"
          ++ asTrait type.text "::protoforge::codec::ProtoOneof" ++ "::FIELDS,required:"
          ++ flagText required ++ ",")
        ++ ")"

/-- A variable of decoding with its start. -/
def VariableCode.text (code : VariableCode) : String :=
  "letmut" ++ code.name ++ (match code.start with
    | .none type => ":::core::option::Option<" ++ type.text ++ ">=" ++ absentValue
    | .default type => ":" ++ type.text ++ "=::core::default::Default::default()"
    | .noRecords => "=::protoforge::UnknownFieldSetBuilder::new()") ++ ";"

/-- An arm of decoding. -/
def ArmCode.text : ArmCode → String
  | .present tag name type =>
      tag ++ "=>" ++ block (name ++ "=" ++ presentValue (decodeCall type ++ ",") ++ ";")
  | .replace tag name type => tag ++ "=>" ++ block (name ++ "=" ++ decodeCall type ++ ";")
  | .append tag packedTag name element =>
      tag ++ "|" ++ packedTag ++ "=>"
        ++ block ("reader.read_repeated(" ++ asValueType element ++ "::WIRE_TYPE,|reader|"
          ++ block (name ++ ".push(" ++ decodeCall element ++ ");" ++ ok "()") ++ ")?;")
  | .insert tag name =>
      tag ++ "=>::protoforge::codec::ProtoMap::decode_entry(&mut" ++ name ++ ",reader)?,"

/-- An attempt at a oneof. -/
def AttemptCode.text (code : AttemptCode) : String :=
  "iflet" ++ presentValue "value" ++ "=" ++ asTrait code.type.text "::protoforge::codec::ProtoOneof"
    ++ "::decode_variant(tag,reader)?"
    ++ block (code.variableName ++ "=" ++ presentValue "value" ++ ";continue;")

/-- The value of a field of the decoded message. -/
def FieldCode.text (code : FieldCode) : String :=
  code.field.text ++ ":" ++ match code.start with
    | .variable name => name
    | .required name fieldName =>
        name ++ ".ok_or(::protoforge::DecodeError::MissingRequiredField"
          ++ block ("field:" ++ quoted fieldName ++ ",") ++ ")?"
    | .records name => name ++ ".build()"
    | .freshSize => "::protoforge::SizeCache::new()"

/-- The method that decodes a message. -/
def DecodeCode.text (code : DecodeCode) : String :=
  let others := match code.records with
    | some name => name ++ ".add(reader.read_unknown(tag)?);"
    | none => "reader.skip_field(tag)?;"
  unreachableArms ++ "fndecode_message(" ++ readerParameter ++ ")->" ++ resultType "Self"
    ++ block (
      String.join (code.constants.map (·.text)) ++ String.join (code.bindings.map (·.text))
      ++ "loop" ++ block ("lettag=reader.read_tag()?;matchtag"
        ++ block ("0=>break," ++ String.join (code.arms.map (·.text)) ++ "tag=>"
          ++ block (String.join (code.attempts.map (·.text)) ++ others)))
      ++ ok ("Self" ++ block (commaSeparated (code.fields.map (·.text)))))

/-- A statement that encodes a field. -/
def OutputCode.encodeText : OutputCode → String
  | .singular field number nonNull =>
      "::protoforge::codec::encode_field(&self." ++ field.text ++ "," ++ numberText number ++ ","
        ++ flagText nonNull ++ ",writer);"
  | .repeated field number packing =>
      "::protoforge::codec::encode_repeated(&self." ++ field.text ++ "," ++ numberText number
        ++ "," ++ packing.text ++ ",writer,);"
  | .map field number =>
      "::protoforge::codec::ProtoMap::encode_map(&self." ++ field.text ++ ","
        ++ numberText number ++ ",writer);"
  | .oneof field true =>
      "::protoforge::codec::ProtoOneof::encode_variant(&self." ++ field.text ++ ",writer);"
  | .oneof field false =>
      "::protoforge::codec::encode_oneof_field(&self." ++ field.text ++ ",writer);"
  | .unknown field => "writer.write_unknown(&self." ++ field.text ++ ");"

/-- The statement that adds the size of a field. -/
def OutputCode.sizeText : OutputCode → String
  | .singular field number nonNull =>
      "len+=::protoforge::codec::encoded_field_len(&self." ++ field.text ++ ","
        ++ numberText number ++ "," ++ flagText nonNull ++ ");"
  | .repeated field number packing =>
      "len+=::protoforge::codec::encoded_repeated_len(&self." ++ field.text ++ ","
        ++ numberText number ++ "," ++ packing.text ++ ",);"
  | .map field number =>
      "len+=::protoforge::codec::ProtoMap::encoded_map_len(&self." ++ field.text ++ ","
        ++ numberText number ++ ");"
  | .oneof field true =>
      "len+=::protoforge::codec::ProtoOneof::encoded_variant_len(&self." ++ field.text ++ ");"
  | .oneof field false =>
      "len+=::protoforge::codec::encoded_oneof_field_len(&self." ++ field.text ++ ");"
  | .unknown field => "len+=self." ++ field.text ++ ".encoded_len();"

namespace MessageCode

/-- The descriptor of a message. -/
def descriptorText (code : MessageCode) : String :=
  "constDESCRIPTOR:::protoforge::field::MessageDescriptor="
    ++ block ("constFIELDS:&[::protoforge::field::Field]=&["
      ++ commaSeparated (code.entries.map (·.text))
      ++ "];::protoforge::field::MessageDescriptor::new(" ++ quoted code.fullName ++ ","
      ++ dialectText code.dialect ++ ",FIELDS)")
    ++ ";"

/-- The method that tells the size, through the remembered size if there is one. -/
def sizeText (code : MessageCode) : String :=
  let body := "letmutlen=0usize;" ++ String.join (code.size.map (·.sizeText)) ++ "len"
  "fnencoded_message_len(&self)->usize" ++ block (match code.sizeField with
    | some field => "self." ++ field.text ++ ".get_or_init(||" ++ block body ++ ")"
    | none => body)

/-- The method that shows undeclared records. -/
def unknownText (code : MessageCode) : String :=
  match code.unknownField with
  | some field =>
      "fnunknown_fields(&self)->&::protoforge::UnknownFieldSet" ++ block ("&self." ++ field.text)
  | none => ""

/-- The size of a message as a call. -/
def sizeCall : String := asTrait "Self" "::protoforge::ProtoMessage" ++ "::encoded_message_len(self)"

/-- The items of the code of a message: the check that no number is used twice once oneofs are
known, and the implementations. -/
def items (code : MessageCode) : List String := [
  "const_:()=::core::assert!(" ++ asTrait code.name.text "::protoforge::ProtoMessage"
    ++ "::DESCRIPTOR.duplicate_number().is_none(),"
    ++ quoted ("`" ++ code.name.text ++ "` uses a field number more than once") ++ ");",
  implementation "::protoforge::ProtoMessage" code.name
    (code.descriptorText ++ code.decode.text
      ++ writingMethod "encode_message" ++ block (String.join (code.encode.map (·.encodeText)))
      ++ code.sizeText ++ code.unknownText),
  typeImplementation code.name "Len" "Message",
  decodeImplementation code.name "reader.read_message()",
  encodeImplementation code.name "writer.write_message(self);"
    ("::protoforge::wire::encoded_len_delimited(" ++ sizeCall ++ ",)"),
  defaultCheckImplementation code.name (sizeCall ++ "==0")]

end MessageCode

end ProtoWire.Code
