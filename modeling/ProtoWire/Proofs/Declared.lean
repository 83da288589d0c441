import ProtoWire.Code.Descriptor
import ProtoWire.Proofs.Lists
import ProtoWire.Proofs.Validated

/-! # What declarations promise

Declarations and descriptors are checked apart: a declaration is accepted field by field, the code
of a message asserts that its numbers differ, and a descriptor is validated against rules of its
own. What passes the checks of declarations passes those of descriptors.
-/

namespace ProtoWire

/-! ## Accepted declarations -/

namespace Declaration

open Source (TypeText)

theorem exists_of_bind_ok {ε α β : Type} {first : Except ε α} {next : α → Except ε β} {result : β}
    (hbind : (first >>= next) = .ok result) : ∃ value, first = .ok value ∧ next value = .ok result := by
  cases first with
  | error error => cases hbind
  | ok value => exact ⟨value, rfl, hbind⟩

/-- What is tested of a number that is declared. -/
theorem refusesNumber_iff (number : UInt32) :
    (!(minimumNumber ≤ number && number ≤ maximumNumber)
      || (firstReservedNumber ≤ number && number ≤ lastReservedNumber)) = true ↔
        ¬ Tag.Allowed number := by
  simp only [Bool.or_eq_true, Bool.not_eq_true', Bool.and_eq_true, Bool.and_eq_false_iff,
    decide_eq_true_iff, decide_eq_false_iff_not, UInt32.le_iff_toNat_le, minimumNumber,
    maximumNumber, firstReservedNumber, lastReservedNumber, UInt32.reduceToNat]
  rw [Tag.Allowed]
  omega

theorem allowed_of_checkNumber {number : UInt32} (hcheck : checkNumber number = .ok ()) :
    Tag.Allowed number := by
  rw [checkNumber] at hcheck
  split at hcheck
  · cases hcheck
  next hnot => exact not_not.mp (mt (refusesNumber_iff number).mpr hnot)

theorem FieldOptions.number_numberedKind (options : FieldOptions) (number : UInt32) :
    (options.numberedKind number).number? = some number := by
  rw [numberedKind]
  split
  · rfl
  · split <;> rfl

theorem FieldOptions.allowed_of_kind {options : FieldOptions} {told : FieldKind}
    (hkind : options.kind = .ok told) : ∀ number ∈ told.number?, Tag.Allowed number := by
  intro number hnumber
  -- Only the last way to tell the kind, from a number, makes a kind that carries one.
  simp only [kind] at hkind
  split at hkind
  · cases hkind
  split at hkind
  · cases hkind
  split at hkind
  · cases hkind
  split at hkind
  · cases hkind
    cases hnumber
  split at hkind
  · cases hkind
    cases hnumber
  split at hkind
  · split at hkind
    · cases hkind
    · cases hkind
      cases hnumber
  split at hkind
  · cases hkind
  · next given hgiven =>
      obtain ⟨_, hcheck, hmade⟩ := exists_of_bind_ok hkind
      cases hmade
      rw [number_numberedKind] at hnumber
      cases hnumber
      exact allowed_of_checkNumber hcheck

/-- The number of an accepted field; a oneof and the special fields have none. -/
def FieldRole.number? : FieldRole → Option UInt32
  | .singular number _ _ | .repeated number _ _ | .map number => some number
  | .oneof _ _ | .unknown | .sizeCache => none

/-- The kind of field that a role is for. -/
def FieldRole.kind : FieldRole → FieldKind
  | .singular number optional nonNull => .singular number optional nonNull
  | .repeated number packed _ => .repeated number packed
  | .map number => .map number
  | .oneof _ required => .oneof required
  | .unknown => .unknown
  | .sizeCache => .sizeCache

/-- The type of the elements of a repeated field. -/
def FieldRole.element? : FieldRole → Option TypeText
  | .repeated _ _ element => some element
  | .singular .. | .map _ | .oneof _ _ | .unknown | .sizeCache => none

/-- An accepted field is the field that was checked, with the type of its elements found in its
own type. -/
theorem MessageField.eq_of_accept {field : MessageField} {accepted : AcceptedField}
    (haccept : field.accept = .ok accepted) :
    field = ⟨accepted.name, accepted.type, accepted.role.kind⟩ ∧
      ∀ element ∈ accepted.role.element?, accepted.type.inner? "Vec" = some element := by
  obtain ⟨name, type, kind⟩ := field
  cases kind with
  | singular | map | unknown | sizeCache => cases haccept; exact ⟨rfl, nofun⟩
  | repeated number packed =>
      rw [accept] at haccept
      dsimp only at haccept
      split at haccept
      next element hinner =>
        cases haccept
        refine ⟨rfl, fun found hfound => ?_⟩
        cases hfound
        exact hinner
      next => cases haccept
  | oneof required =>
      cases required with
      | true => cases haccept; exact ⟨rfl, nofun⟩
      | false =>
          rw [accept] at haccept
          dsimp only at haccept
          split at haccept
          · cases haccept
            exact ⟨rfl, nofun⟩
          · cases haccept

theorem MessageField.number_of_accept {field : MessageField} {accepted : AcceptedField}
    (haccept : field.accept = .ok accepted) : accepted.role.number? = field.kind.number? := by
  rw [(eq_of_accept haccept).1]
  cases accepted.role <;> rfl

theorem NamedField.allowed_of_toMessageField {named : NamedField} {field : MessageField}
    (hfield : named.toMessageField = .ok field) :
    ∀ number ∈ field.kind.number?, Tag.Allowed number := by
  rw [toMessageField] at hfield
  split at hfield
  · cases hfield
  · next options hoptions =>
      obtain ⟨kind, hkind, hmade⟩ := exists_of_bind_ok hfield
      cases hmade
      exact FieldOptions.allowed_of_kind hkind

/-- What was found on the way to an accepted message. Its fields come from the declared ones, one by
one. -/
theorem steps_of_acceptMessage {declaration : Declaration} {message : AcceptedMessage}
    (haccepted : acceptMessage declaration = .ok message) :
    ∃ options declared fields,
      readOptions MessageOptions.table {} declaration.attributes = .ok options ∧
      options.declaredDialect = .ok message.dialect ∧
      messageFields declaration = .ok declared ∧
      declared.mapM NamedField.toMessageField = .ok fields ∧
      fields.mapM MessageField.accept = .ok message.fields := by
  obtain ⟨declared, hdeclared, hread⟩ := exists_of_bind_ok haccepted
  split at hread
  · cases hread
  next options hoptions =>
    obtain ⟨dialect, hdialect, hmade⟩ := exists_of_bind_ok hread
    obtain ⟨fields, hfields, hchecked⟩ := exists_of_bind_ok hmade
    obtain ⟨-, -, haccept⟩ := exists_of_bind_ok hchecked
    obtain ⟨accepted, hmapped, hmade⟩ := exists_of_bind_ok haccept
    cases hmade
    exact ⟨options, declared, fields, hoptions, hdialect, hdeclared, hfields, hmapped⟩

theorem allowed_of_acceptMessage {declaration : Declaration} {message : AcceptedMessage}
    (haccepted : acceptMessage declaration = .ok message) :
    ∀ field ∈ message.fields, ∀ number ∈ field.role.number?, Tag.Allowed number := by
  obtain ⟨_, declared, fields, -, -, -, hdeclared, hfields⟩ := steps_of_acceptMessage haccepted
  intro accepted haccepted number hnumber
  obtain ⟨field, hfield, haccept⟩ := exists_of_mapM_ok hfields accepted haccepted
  obtain ⟨named, -, hnamed⟩ := exists_of_mapM_ok hdeclared field hfield
  rw [MessageField.number_of_accept haccept] at hnumber
  exact NamedField.allowed_of_toMessageField hnamed number hnumber

theorem Variant.allowed_of_toMember {variant : Variant} {member : AcceptedMember}
    (hmember : variant.toMember = .ok member) : Tag.Allowed member.number := by
  rw [toMember] at hmember
  split at hmember
  · cases hmember
  split at hmember
  · cases hmember
  split at hmember
  · cases hmember
  · obtain ⟨_, hcheck, hmade⟩ := exists_of_bind_ok hmember
    cases hmade
    exact allowed_of_checkNumber hcheck

theorem allowed_of_acceptOneof {declaration : Declaration} {oneof : AcceptedOneof}
    (haccepted : acceptOneof declaration = .ok oneof) :
    ∀ member ∈ oneof.members, Tag.Allowed member.number := by
  rw [acceptOneof] at haccepted
  split at haccepted
  · obtain ⟨members, hmembers, hmade⟩ := exists_of_bind_ok haccepted
    cases hmade
    intro member hmember
    obtain ⟨variant, -, hvariant⟩ := exists_of_mapM_ok hmembers member hmember
    exact Variant.allowed_of_toMember hvariant
  · cases haccepted

end Declaration

/-! ## The descriptors of accepted declarations -/

namespace Code

open Declaration (AcceptedField AcceptedMessage AcceptedOneof acceptMessage acceptOneof)
open Source (Attribute Tree TypeText)

/-- The fields of a oneof type are those of an accepted declaration, in a scope of its own. -/
def Scope.DeclaresOneof (scope : Scope) (type : TypeText) : Prop :=
  ∃ declaration oneof inner,
    acceptOneof declaration = .ok oneof ∧ scope.members type = oneofFields inner oneof

/-- The numbers that a field is carried under: its own, or those of the members of its oneof. -/
def fieldNumbers (scope : Scope) (field : AcceptedField) : List UInt32 :=
  match field.role with
  | .singular number _ _ | .repeated number _ _ | .map number => [number]
  | .oneof type _ => (scope.members type).map (·.number)
  | .unknown | .sizeCache => []

theorem numbers_descriptor (scope : Scope) (message : AcceptedMessage) :
    ((messageCode message).descriptor scope).standardFields.map (·.number) =
      message.fields.flatMap (fieldNumbers scope) := by
  simp only [MessageDescriptor.standardFields, MessageCode.descriptor, messageCode]
  induction message.fields with
  | nil => rfl
  | cons field rest ih =>
      rw [List.flatMap_cons, ← ih]
      obtain ⟨name, type, role⟩ := field
      cases role with
      | singular | repeated | map | unknown | sizeCache => rfl
      | oneof inner required => exact List.map_append

theorem Scope.DeclaresOneof.sound {scope : Scope} {type : TypeText}
    (hdeclares : scope.DeclaresOneof type) : ∀ member ∈ scope.members type, member.Sound := by
  obtain ⟨declaration, oneof, inner, haccepted, hmembers⟩ := hdeclares
  rw [hmembers]
  intro described hdescribed
  obtain ⟨member, hmember, rfl⟩ := List.mem_map.mp hdescribed
  exact ⟨Declaration.allowed_of_acceptOneof haccepted member hmember, (nomatch ·)⟩

theorem sound_of_entryCode {scope : Scope} {dialect : Dialect} {field : AcceptedField}
    (hallowed : ∀ number ∈ field.role.number?, Tag.Allowed number)
    (honeof : ∀ type required, field.role = .oneof type required → scope.DeclaresOneof type)
    {code : EntryCode} (hcode : entryCode? dialect field = some code) :
    ∀ described ∈ (code.descriptor scope).members, described.Sound := by
  intro described hdescribed
  obtain ⟨name, type, role⟩ := field
  cases role with
  | unknown | sizeCache => cases hcode
  | singular number =>
      cases hcode
      cases List.mem_singleton.mp hdescribed
      exact ⟨hallowed number rfl, (nomatch ·)⟩
  | map number =>
      cases hcode
      cases List.mem_singleton.mp hdescribed
      exact ⟨hallowed number rfl, (nomatch ·)⟩
  | repeated number packed element =>
      cases hcode
      cases List.mem_singleton.mp hdescribed
      exact ⟨hallowed number rfl, fun hpacked => (Bool.and_eq_true_iff.mp hpacked).1⟩
  | oneof inner required =>
      cases hcode
      exact (honeof inner required rfl).sound described hdescribed

/-- A declaration that is accepted, with accepted oneofs and numbers that differ, has a valid
descriptor: no number is out of range, reserved or shared, and nothing is packed that cannot be. -/
theorem validate_of_accepted {declaration : Declaration} {message : AcceptedMessage}
    {scope : Scope} (haccepted : acceptMessage declaration = .ok message)
    (honeofs : ∀ field ∈ message.fields, ∀ type required, field.role = .oneof type required →
      scope.DeclaresOneof type)
    (hunique : ((messageCode message).descriptor scope).duplicateNumber? = none) :
    let descriptor := (messageCode message).descriptor scope
    let numbers := message.fields.flatMap (fieldNumbers scope)
    descriptor.validate = .ok () ∧
      (∀ number ∈ numbers, Tag.Allowed number) ∧ numbers.Nodup ∧
      ∀ field ∈ descriptor.standardFields, field.packed = true → field.type.isPackable = true := by
  intro descriptor numbers
  have hsound : ∀ field ∈ descriptor.standardFields, field.Sound := by
    intro described hdescribed
    obtain ⟨entry, hentry, hmember⟩ := List.mem_flatMap.mp hdescribed
    obtain ⟨code, hcodes, rfl⟩ := List.mem_map.mp hentry
    obtain ⟨field, hfield, hcode⟩ := List.mem_filterMap.mp hcodes
    exact sound_of_entryCode (Declaration.allowed_of_acceptMessage haccepted field hfield)
      (honeofs field hfield) hcode described hmember
  have hnumbers : descriptor.standardFields.map (·.number) = numbers :=
    numbers_descriptor scope message
  have hnodup : numbers.Nodup := by
    rw [← hnumbers]
    exact (MessageDescriptor.duplicateNumber_eq_none_iff _).mp hunique
  refine ⟨(MessageDescriptor.validate_eq_ok_iff _).mpr ⟨hsound, hnumbers ▸ hnodup⟩, ?_, hnodup,
    fun field hfield => (hsound field hfield).packable⟩
  intro number hnumber
  rw [← hnumbers] at hnumber
  obtain ⟨field, hfield, rfl⟩ := List.mem_map.mp hnumber
  exact (hsound field hfield).allowed

/-- The attribute that holds options. -/
def optionsOf (trees : List Tree) : List Attribute :=
  [⟨{ segments := [⟨Declaration.keyword, .none⟩] }, .list trees⟩]

/-- A oneof with the greatest number and the last one before those that are reserved. -/
def origin : Declaration where
  name := .ofString "Origin"
  isGeneric := false
  attributes := []
  body := .variants [
    ⟨.ofString "Sensor", .positional [.plain "String"],
      optionsOf [.word "tag", .symbol '=' false, .literal "536870911"]⟩,
    ⟨.ofString "Batch", .positional [.plain "u32"],
      optionsOf [.word "tag", .symbol '=' false, .literal "18999"]⟩]

/-- The oneof as it is accepted. -/
def acceptedOrigin : AcceptedOneof where
  name := .ofString "Origin"
  members := [
    ⟨.ofString "Sensor", .plain "String", 536870911⟩, ⟨.ofString "Batch", .plain "u32", 18999⟩]

theorem acceptOneof_origin : acceptOneof origin = .ok acceptedOrigin := by cbv

/-- A message with texts that ask to be packed, numbers that are packed unasked and a oneof. -/
def measurement : Declaration where
  name := .ofString "Measurement"
  isGeneric := false
  attributes := []
  body := .named [
    ⟨.ofString "labels", .container "Vec<String>" "Vec" (.plain "String"),
      optionsOf [.word "tag", .symbol '=' false, .literal "1", .symbol ',' false,
        .word "repeated", .symbol ',' false, .word "packed", .symbol '=' false, .word "true"]⟩,
    ⟨.ofString "values", .container "Vec<u32>" "Vec" (.plain "u32"),
      optionsOf [.word "tag", .symbol '=' false, .literal "2", .symbol ',' false, .word "repeated"]⟩,
    ⟨.ofString "origin", .container "Option<Origin>" "Option" (.plain "Origin"),
      optionsOf [.word "oneof"]⟩]

/-- A scope of texts and counts, in which every oneof has the given fields. -/
def textsAndCounts (members : List StandardField) : Scope where
  fieldType type := if type.text = "String" then .scalar .string else .scalar .uint32
  isWrapped _ := false
  members _ := members

/-- The message as it is accepted. -/
def acceptedMeasurement : AcceptedMessage where
  name := .ofString "Measurement"
  fullName := "Measurement"
  dialect := .proto3
  fields := [
    ⟨.ofString "labels", .container "Vec<String>" "Vec" (.plain "String"),
      .repeated 1 (some true) (.plain "String")⟩,
    ⟨.ofString "values", .container "Vec<u32>" "Vec" (.plain "u32"),
      .repeated 2 none (.plain "u32")⟩,
    ⟨.ofString "origin", .container "Option<Origin>" "Option" (.plain "Origin"),
      .oneof (.plain "Origin") false⟩]

theorem measurement_validates :
    let scope := textsAndCounts [
      { number := 536870911, name := "Sensor", type := .scalar .string },
      { number := 18999, name := "Batch", type := .scalar .uint32 }]
    acceptMessage measurement = .ok acceptedMeasurement ∧ scope.DeclaresOneof (.plain "Origin") ∧
      ((messageCode acceptedMeasurement).descriptor scope).validate = .ok () := by
  intro scope
  have horigin : scope.DeclaresOneof (.plain "Origin") :=
    ⟨origin, acceptedOrigin, textsAndCounts [], acceptOneof_origin, rfl⟩
  have haccepted : acceptMessage measurement = .ok acceptedMeasurement := by cbv
  refine ⟨haccepted, horigin, (validate_of_accepted haccepted ?_ (by decide)).1⟩
  intro field hfield type required hrole
  rcases List.mem_cons.mp hfield with rfl | hfield
  · cases hrole
  rcases List.mem_cons.mp hfield with rfl | hfield
  · cases hrole
  cases List.mem_singleton.mp hfield
  cases hrole
  exact horigin

end Code

end ProtoWire
