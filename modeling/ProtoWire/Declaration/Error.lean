import ProtoWire.Source.Parser

/-! # Faults of declarations

Why a declaration is refused. Faults of an attribute are found while its options are read, and
there may be several in one attribute; every other fault is a rule about options and shapes.
-/

namespace ProtoWire.Declaration

open Source (ParseError)

/-- What is wrong with one item of an attribute, or with the attribute as a whole. -/
inductive OptionFault where
  /-- A list is no list of items. -/
  | unreadable (error : ParseError)
  | unknownName (name : String) (suggestion : Option String)
  | repeatedName (name : String)
  | unexpectedKind (kind : String)
  | unknownText (text : String)
  | unexpectedForm (form : String)
  | tooLarge
  | invalidDigit
deriving DecidableEq, Repr

/-- The wording of a fault of an item. -/
def OptionFault.message : OptionFault → String
  | .unreadable error => error.message
  | .unknownName name suggestion =>
      s!"Unknown field: `{name}`" ++ match suggestion with
        | some known => s!". Did you mean `{known}`?"
        | none => ""
  | .repeatedName name => s!"Duplicate field `{name}`"
  | .unexpectedKind kind => s!"Unexpected type `{kind}`"
  | .unknownText text => s!"Unknown literal value `{text}`"
  | .unexpectedForm form => s!"Unexpected meta-item format `{form}`"
  | .tooLarge => "number too large to fit in target type"
  | .invalidDigit => "invalid digit found in string"

/-- A fault with the name of the option it was found at. -/
structure LocatedFault where
  fault : OptionFault
  option : Option String
deriving DecidableEq, Repr

/-- The wording of a fault, and where it was found. -/
def LocatedFault.message (located : LocatedFault) : String :=
  located.fault.message ++ match located.option with
    | some name => s!" at {name}"
    | none => ""

/-- The faults of an attribute: a first one and more. -/
structure AttributeFaults where
  first : LocatedFault
  rest : List LocatedFault
deriving DecidableEq, Repr

/-- The wording of the faults of an attribute. -/
def AttributeFaults.message (faults : AttributeFaults) : String :=
  match faults.rest with
  | [] => faults.first.message
  | rest =>
      "Multiple errors: (" ++ ", ".intercalate ((faults.first :: rest).map (·.message)) ++ ")"

/-- What is wrong with the attribute of an enumeration's variant. -/
inductive VariantFault where
  | argumentsExpected
  | parenthesesExpected
  /-- The list is no list of settings. -/
  | unreadable (error : ParseError)
  | nameExpected
  | tooLarge
  | tooSmall
deriving DecidableEq, Repr

/-- The wording of a fault in the attribute of a variant. -/
def VariantFault.message : VariantFault → String
  | .argumentsExpected => "expected attribute arguments in parentheses: #[proto(...)]"
  | .parenthesesExpected => "expected parentheses: #[proto(...)]"
  | .unreadable error => error.message
  | .nameExpected => "expected `value = N` or `unrecognized`"
  | .tooLarge => "number too large to fit in target type"
  | .tooSmall => "number too small to fit in target type"

/-- Why a declaration is refused. -/
inductive Fault where
  | attribute (faults : AttributeFaults)
  | variantAttribute (fault : VariantFault)
  /-- A message with generic parameters. -/
  | genericMessage
  /-- A message that has no fields by its kind. -/
  | messageNotStructure
  | messageFieldsNotNamed
  | unknownDialect (keyword : String)
  | requiredOutsideOneof
  | packedOutsideRepeated
  | conflictingOptions
  | numberedOneof
  | missingNumber
  | invalidNumber (number : UInt32)
  | repeatedNumber (number : UInt32)
  | repeatedSpecialField
  | repeatedFieldType
  | oneofFieldType
  | oneofNotEnumeration
  | memberShape
  | missingMemberNumber
  | enumerationNotEnumeration
  | unrecognizedShape
  | valuedShape
  | conflictingVariantOptions
  | missingValue
  | missingUnrecognized
  | repeatedUnrecognized
deriving DecidableEq, Repr

/-- The wording of a fault. -/
def Fault.message : Fault → String
  | .attribute faults => faults.message
  | .variantAttribute fault => fault.message
  | .genericMessage => "ProtoMessage cannot be derived for generic types"
  | .messageNotStructure => "only structs supported"
  | .messageFieldsNotNamed => "only named fields supported"
  | .unknownDialect keyword =>
      s!"unknown syntax '{keyword}', expected \"proto2\" or \"proto3\""
  | .requiredOutsideOneof => "'required' attribute is only valid for oneof fields"
  | .packedOutsideRepeated => "'packed' attribute is only valid for repeated fields"
  | .conflictingOptions => "conflicting field attributes"
  | .numberedOneof => "oneof fields take their numbers from the oneof's variants"
  | .missingNumber => "missing #[proto(tag = N)] attribute"
  | .invalidNumber number =>
      s!"Tag number '{number}' is invalid. Valid tag numbers are in the range [1, 536870911], "
        ++ "excluding [19000, 19999]"
  | .repeatedNumber number => s!"field number {number} is used more than once"
  | .repeatedSpecialField => "at most one `unknown` and one `size_cache` field are allowed"
  | .repeatedFieldType => "repeated fields must have type Vec<T>"
  | .oneofFieldType => "oneof fields must have type Option<T>, or T when marked `required`"
  | .oneofNotEnumeration => "ProtoOneof can only be derived for enums"
  | .memberShape => "oneof variants must have exactly one unnamed field, e.g., `Foo(i32)`"
  | .missingMemberNumber => "missing #[proto(tag = N)] attribute on oneof variant"
  | .enumerationNotEnumeration => "ProtoEnum can only be derived for enums"
  | .unrecognizedShape =>
      "the unrecognized variant must hold a single i32, e.g., `Unrecognized(i32)`"
  | .valuedShape => "enum variants with a value must be unit variants"
  | .conflictingVariantOptions => "conflicting variant attributes"
  | .missingValue => "missing #[proto(value = N)] attribute on enum variant"
  | .missingUnrecognized =>
      "ProtoEnum requires one #[proto(unrecognized)] variant holding an i32"
  | .repeatedUnrecognized => "only one #[proto(unrecognized)] variant is allowed"

end ProtoWire.Declaration
