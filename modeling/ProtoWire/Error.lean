/-! # Errors

Why decoding, encoding, conversion or the check of a descriptor fails. Each error is a cause with
the values that belong to it; its wording is given by one function per type.
-/

namespace ProtoWire

/-- A converter refused to turn a wire value into its domain value. -/
structure ConversionError where
  converter : String
  reason : String
deriving DecidableEq, Repr

/-- The wording of a conversion error names the converter and its reason. -/
def ConversionError.message (error : ConversionError) : String :=
  s!"{error.converter} failed to convert value: {error.reason}"

/-- How a byte stream failed to deliver a byte. -/
inductive StreamFault where
  | unexpectedEnd
  | connectionReset
  /-- Any other fault, by its name. A read that is merely tried again has no fault. -/
  | other (name : String)
deriving DecidableEq, Repr

/-- Why a message cannot be decoded. -/
inductive DecodeError where
  | malformedVarint
  | truncated (needed remaining : Nat)
  | unsupportedWireType (value : UInt8)
  | invalidWireType (value : UInt8)
  | invalidFieldNumber (number : UInt32)
  | invalidUtf8
  | invalidPackedLength (multiple actual : Nat)
  | recursionLimitExceeded (limit : Nat)
  | missingRequiredField (field : String)
  | messageTooLarge (size maximum : Nat)
  | conversion (error : ConversionError)
  | stream (fault : StreamFault)
deriving DecidableEq, Repr

/-- The wording of a decode error. -/
def DecodeError.message : DecodeError → String
  | .malformedVarint => "malformed varint: no terminating byte within 10 bytes"
  | .truncated needed remaining =>
      s!"truncated input: needed {needed} bytes but only {remaining} remain"
  | .unsupportedWireType value =>
      s!"unsupported wire type {value}: group encoding is not supported"
  | .invalidWireType value => s!"invalid wire type {value}"
  | .invalidFieldNumber number => s!"invalid field number {number}"
  | .invalidUtf8 => "invalid UTF-8 in string field"
  | .invalidPackedLength multiple actual =>
      s!"invalid packed field length: {actual} is not a multiple of {multiple}"
  | .recursionLimitExceeded limit => s!"recursion limit of {limit} nested messages exceeded"
  | .missingRequiredField field => s!"missing required field '{field}'"
  | .messageTooLarge size maximum =>
      s!"message of {size} bytes exceeds the configured maximum of {maximum}"
  | .conversion error => error.message
  | .stream _ => "i/o error while reading message"

/-- A sink has too little room for the message. -/
structure EncodeError where
  required : Nat
  remaining : Nat
deriving DecidableEq, Repr

/-- The wording of an encode error gives the room needed and the room there is. -/
def EncodeError.message (error : EncodeError) : String :=
  s!"insufficient buffer capacity: required {error.required} bytes, {error.remaining} remaining"

/-- What is wrong with the descriptor of a message. -/
inductive DescriptorError where
  | invalidFieldNumber (field : String) (number : UInt32)
  | reservedFieldNumber (field : String) (number : UInt32)
  | duplicateFieldNumber (number : UInt32) (first second : String)
  | packedNotPackable (field : String) (fieldType : String)
  | unsupportedType (value : Int32)
deriving DecidableEq, Repr

/-- The wording of a descriptor error. -/
def DescriptorError.message : DescriptorError → String
  | .invalidFieldNumber field number =>
      s!"field '{field}' has number {number}, outside of 1..=536870911"
  | .reservedFieldNumber field number =>
      s!"field '{field}' uses number {number} from the reserved range 19000..=19999"
  | .duplicateFieldNumber number first second =>
      s!"field number {number} is used by both '{first}' and '{second}'"
  | .packedNotPackable field fieldType =>
      s!"field '{field}' is packed but {fieldType} is not a packable type"
  | .unsupportedType value => s!"descriptor type {value} is not supported"

end ProtoWire
