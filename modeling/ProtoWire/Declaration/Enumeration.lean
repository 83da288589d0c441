import ProtoWire.Declaration.Options

/-! # Declared enumerations

An enumeration is declared by variants with a value each, which hold nothing, and one variant for
all other numbers, which holds the number. The first faulty variant is reported, and only then
whether the variant for other numbers is missing or occurs twice.
-/

namespace ProtoWire.Declaration

/-- A variant of an enumeration that code can be written for. -/
inductive AcceptedVariant where
  | known (name : Identifier) (value : Int32)
  | unrecognized (name : Identifier)
deriving DecidableEq, Repr

/-- An enumeration that code can be written for. -/
structure AcceptedEnumeration where
  name : Identifier
  known : List (Identifier × Int32)
  unrecognized : Identifier
deriving DecidableEq, Repr

/-- Tells what a variant is from its options and its shape. -/
def classifyVariant (name : Identifier) (options : VariantOptions) (shape : VariantShape) :
    Except Fault AcceptedVariant :=
  match options.value, options.unrecognized with
  | some value, false =>
      match shape with
      | .unit => .ok (.known name value)
      | _ => .error .valuedShape
  | none, true => if shape.single?.isSome then .ok (.unrecognized name) else .error .unrecognizedShape
  | some _, true => .error .conflictingVariantOptions
  | none, false => .error .missingValue

/-- Accepts a variant of an enumeration. -/
def Variant.toVariant (variant : Variant) : Except Fault AcceptedVariant :=
  match VariantOptions.read variant.attributes with
  | .error fault => .error (.variantAttribute fault)
  | .ok options => classifyVariant variant.name options variant.shape

/-- The variants that have a value. -/
def knownVariants (variants : List AcceptedVariant) : List (Identifier × Int32) :=
  variants.filterMap fun
    | .known name value => some (name, value)
    | .unrecognized _ => none

/-- The variants for other numbers. -/
def unrecognizedVariants (variants : List AcceptedVariant) : List Identifier :=
  variants.filterMap fun
    | .known _ _ => none
    | .unrecognized name => some name

/-- Accepts the declaration of an enumeration, or reports its first fault. -/
def acceptEnumeration (declaration : Declaration) : Except Fault AcceptedEnumeration :=
  match declaration.body with
  | .variants variants => do
      let accepted ← variants.mapM Variant.toVariant
      match unrecognizedVariants accepted with
      | [] => .error .missingUnrecognized
      | [name] => .ok ⟨declaration.name, knownVariants accepted, name⟩
      | _ => .error .repeatedUnrecognized
  | _ => .error .enumerationNotEnumeration

end ProtoWire.Declaration
