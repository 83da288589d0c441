import ProtoWire.Declaration.Options
import ProtoWire.FieldType

/-! # Declared messages

A declaration of a message is accepted when it has named fields and no parameters, its options are
sound, no number is used twice, at most one field of each special kind occurs, and the types of
repeated fields and oneofs have the form they need. The faults are looked for in this order, those
of options field by field, and the first one is reported.
-/

namespace ProtoWire.Declaration

open Source (TypeText)

/-- The kind of a field of a message, told by its options. -/
inductive FieldKind where
  | singular (number : UInt32) (optional nonNull : Bool)
  | repeated (number : UInt32) (packed : Option Bool)
  | map (number : UInt32)
  | oneof (required : Bool)
  /-- Keeps undeclared records. -/
  | unknown
  /-- Remembers the encoded size. -/
  | sizeCache
deriving DecidableEq, Repr

namespace FieldKind

/-- The number of a field; a oneof and the special fields have none. -/
def number? : FieldKind → Option UInt32
  | .singular number _ _ | .repeated number _ | .map number => some number
  | .oneof _ | .unknown | .sizeCache => none

end FieldKind

/-- A field whose options are sound. -/
structure MessageField where
  name : Identifier
  type : TypeText
  kind : FieldKind
deriving Repr

/-- The least number that may be declared. -/
def minimumNumber : UInt32 := 1

/-- The greatest number that may be declared. -/
def maximumNumber : UInt32 := 536870911

/-- The first of the numbers that may not be declared though they are in range. -/
def firstReservedNumber : UInt32 := 19000

/-- The last of the numbers that may not be declared though they are in range. -/
def lastReservedNumber : UInt32 := 19999

/-- Checks that a number may be declared. -/
def checkNumber (number : UInt32) : Except Fault Unit :=
  if !(minimumNumber ≤ number && number ≤ maximumNumber)
      || (firstReservedNumber ≤ number && number ≤ lastReservedNumber) then
    .error (.invalidNumber number)
  else .ok ()

namespace FieldOptions

/-- How many of the options that exclude one another are set. -/
def exclusiveCount (options : FieldOptions) : Nat :=
  [options.optional, options.nonNull, options.repeated, options.map, options.oneof,
    options.unknown, options.sizeCache].count true

/-- The kind of a field that carries a number. -/
def numberedKind (options : FieldOptions) (number : UInt32) : FieldKind :=
  if options.map then .map number
  else if options.repeated then .repeated number options.packed
  else .singular number options.optional options.nonNull

/-- The kind of field that options tell, or the first rule they break. -/
def kind (options : FieldOptions) : Except Fault FieldKind :=
  if options.required && !options.oneof then .error .requiredOutsideOneof
  else if options.packed.isSome && !options.repeated then .error .packedOutsideRepeated
  else if 1 < options.exclusiveCount then .error .conflictingOptions
  else if options.unknown then .ok .unknown
  else if options.sizeCache then .ok .sizeCache
  else if options.oneof then
    if options.number.isSome then .error .numberedOneof else .ok (.oneof options.required)
  else
    match options.number with
    | none => .error .missingNumber
    | some number => do
        checkNumber number
        return options.numberedKind number

end FieldOptions

/-- Reads the options of a field and tells its kind. -/
def NamedField.toMessageField (field : NamedField) : Except Fault MessageField := do
  match readOptions FieldOptions.table {} field.attributes with
  | .error faults => throw (.attribute faults)
  | .ok options => return ⟨field.name, field.type, ← options.kind⟩

/-- The first number that an earlier field carries too. -/
def repeatedNumber? (seen : List UInt32) : List MessageField → Option UInt32
  | [] => none
  | field :: rest =>
      match field.kind.number? with
      | none => repeatedNumber? seen rest
      | some number =>
          if seen.contains number then some number
          else repeatedNumber? (seen ++ [number]) rest

/-- Checks that numbers are not shared and that special fields occur at most once. -/
def checkFields (fields : List MessageField) : Except Fault Unit :=
  match repeatedNumber? [] fields with
  | some number => .error (.repeatedNumber number)
  | none =>
      let unknown := fields.filter (·.kind == .unknown)
      let sizeCache := fields.filter (·.kind == .sizeCache)
      if 1 < unknown.length || 1 < sizeCache.length then .error .repeatedSpecialField else .ok ()

/-- What a field is for, with the type of its elements or of its oneof. -/
inductive FieldRole where
  | singular (number : UInt32) (optional nonNull : Bool)
  | repeated (number : UInt32) (packed : Option Bool) (element : TypeText)
  | map (number : UInt32)
  | oneof (type : TypeText) (required : Bool)
  | unknown
  | sizeCache
deriving Repr

/-- A field that code can be written for. -/
structure AcceptedField where
  name : Identifier
  type : TypeText
  role : FieldRole
deriving Repr

/-- Finds the type inside the type of a repeated field or a oneof. A required oneof is its own
type. -/
def MessageField.accept (field : MessageField) : Except Fault AcceptedField :=
  match field.kind with
  | .singular number optional nonNull =>
      .ok ⟨field.name, field.type, .singular number optional nonNull⟩
  | .repeated number packed =>
      match field.type.inner? "Vec" with
      | some element => .ok ⟨field.name, field.type, .repeated number packed element⟩
      | none => .error .repeatedFieldType
  | .map number => .ok ⟨field.name, field.type, .map number⟩
  | .oneof true => .ok ⟨field.name, field.type, .oneof field.type true⟩
  | .oneof false =>
      match field.type.inner? "Option" with
      | some type => .ok ⟨field.name, field.type, .oneof type false⟩
      | none => .error .oneofFieldType
  | .unknown => .ok ⟨field.name, field.type, .unknown⟩
  | .sizeCache => .ok ⟨field.name, field.type, .sizeCache⟩

/-- A message that code can be written for. -/
structure AcceptedMessage where
  name : Identifier
  /-- The name in the descriptor. -/
  fullName : String
  dialect : Dialect
  fields : List AcceptedField
deriving Repr

/-- The dialect that is declared; proto3 unless told. -/
def MessageOptions.declaredDialect (options : MessageOptions) : Except Fault Dialect :=
  match options.dialect with
  | none => .ok .proto3
  | some keyword =>
      match Dialect.ofKeyword? keyword with
      | some dialect => .ok dialect
      | none => .error (.unknownDialect keyword)

/-- The named fields of the declaration of a message. -/
def messageFields (declaration : Declaration) :
    Except Fault (List NamedField) :=
  if declaration.isGeneric then .error .genericMessage
  else
    match declaration.body with
    | .named fields => .ok fields
    | .positional | .unit => .error .messageFieldsNotNamed
    | .overlapping | .variants _ => .error .messageNotStructure

/-- Accepts the declaration of a message, or reports its first fault. -/
def acceptMessage (declaration : Declaration) : Except Fault AcceptedMessage := do
  let declared ← messageFields declaration
  match readOptions MessageOptions.table {} declaration.attributes with
  | .error faults => throw (.attribute faults)
  | .ok options =>
      let dialect ← options.declaredDialect
      let fields ← declared.mapM NamedField.toMessageField
      checkFields fields
      let accepted ← fields.mapM MessageField.accept
      return {
        name := declaration.name
        fullName := options.name.getD declaration.name.text
        dialect
        fields := accepted }

end ProtoWire.Declaration
