import ProtoWire.Proofs.Numbering
import ProtoWire.Value

/-! # Messages of their types

A message conforms to its type when every value in it, at every depth, has the type it is declared
with, and when a given property holds of every message in it. What conforming messages have in
common is proved by one induction, with a case for each way a value, a message or a content is
built.
-/

namespace ProtoWire

namespace ValueType

/-- Whether values of the type are never absent. -/
def isPlain : ValueType → Bool
  | .scalar _ | .enumeration _ | .message _ => true
  | .option _ => false
  | .converted _ wire => wire.isPlain

/-- Whether values of the type are absent in one way at most. -/
def isSingular : ValueType → Bool
  | .scalar _ | .enumeration _ | .message _ => true
  | .option inner => inner.isPlain
  | .converted _ wire => wire.isSingular

theorem isSingular_of_isPlain {type : ValueType} (hplain : type.isPlain = true) :
    type.isSingular = true := by
  induction type with
  | scalar | enumeration | message => rfl
  | option inner => cases hplain
  | converted converter wire ih => exact ih hplain

end ValueType

/-- Whether values that may be absent are declared for single fields only, and not for those that
are always written. -/
def Entry.optionsSingular : Entry → Bool
  | .singular _ _ type _ nonNull => if nonNull then type.isPlain else type.isSingular
  | .repeated _ _ element _ => element.isPlain
  | .map _ _ _ value _ => value.isPlain
  | .oneof _ schema _ => schema.members.all (·.type.isPlain)

namespace Entry

variable {name : String} {number : UInt32} {type : ValueType} {optional nonNull : Bool}

theorem isSingular_of_optionsSingular
    (hoptions : (singular name number type optional nonNull).optionsSingular = true) :
    type.isSingular = true := by
  simp only [optionsSingular] at hoptions
  cases nonNull with
  | true => exact ValueType.isSingular_of_isPlain hoptions
  | false => exact hoptions

/-- A value that is written is present: its type has no other, or it would be left out. -/
theorem isPlain_or_of_written
    (hoptions : (singular name number type optional nonNull).optionsSingular = true)
    {omitted : Bool} (hwritten : (nonNull || !omitted) = true) :
    type.isPlain = true ∨ omitted = false := by
  cases nonNull with
  | true => exact .inl hoptions
  | false => exact .inr (by simpa using hwritten)

end Entry

/-- Values that may be absent are declared for single fields only, in all message types. -/
def Catalog.OptionsSingular (catalog : Catalog) : Prop :=
  ∀ listed ∈ catalog.messages, ∀ entry ∈ listed.2.entries, entry.optionsSingular = true

instance : DecidablePred Catalog.OptionsSingular := fun _ =>
  inferInstanceAs (Decidable (∀ _ ∈ _, ∀ _ ∈ _, _))

theorem Catalog.OptionsSingular.schema {catalog : Catalog} (hoptions : catalog.OptionsSingular)
    (name : String) : ∀ entry ∈ (catalog.schema name).entries, entry.optionsSingular = true :=
  @Catalog.schema_of_forall catalog
    (fun schema => ∀ entry ∈ schema.entries, entry.optionsSingular = true) hoptions name
    fun _ hentry => (List.not_mem_nil hentry).elim

/-- How the entries of a map are arranged: in the order of the keys, or in any order, with every key
once. -/
def MapOrder.Arranges : MapOrder → List (Scalar × Value) → Prop
  | .byKey, entries => entries.Pairwise fun a b => a.1.precedes b.1 = true
  | .unspecified, entries => (entries.map Prod.fst).Nodup

/-! ## Conformance -/

mutual

/-- A value of a value type. -/
inductive Value.Conforms (catalog : Catalog) (holds : MessageSchema → Message → Prop) :
    ValueType → Value → Prop where
  | scalar (type : ScalarType) (scalar : Scalar) (htype : scalar.type = type) :
      Value.Conforms catalog holds (.scalar type) (.scalar scalar)
  | enumeration (schema : EnumSchema) (value : EnumValue) :
      Value.Conforms catalog holds (.enumeration schema) (.enumeration value)
  | message (name : String) (message : Message)
      (hmessage : Message.Conforms catalog holds (catalog.schema name) message) :
      Value.Conforms catalog holds (.message name) (.message message)
  | absent (inner : ValueType) : Value.Conforms catalog holds (.option inner) .absent
  | present (inner : ValueType) (value : Value) (hvalue : Value.Conforms catalog holds inner value) :
      Value.Conforms catalog holds (.option inner) (.present value)
  | reference (converter : String) (wire : ValueType) (held : HeldForm) (value : Value)
      (hvalue : Value.Conforms catalog holds wire value) :
      Value.Conforms catalog holds (.converted converter wire) (.reference held value)

/-- A message of a message type that satisfies `holds`, as do all messages in it. -/
inductive Message.Conforms (catalog : Catalog) (holds : MessageSchema → Message → Prop) :
    MessageSchema → Message → Prop where
  | mk (schema : MessageSchema) (contents : List Content) (unknown : UnknownFieldSet)
      (cache : SizeCache) (hholds : holds schema (.mk contents unknown cache))
      (hcontents : ContentsConform catalog holds schema.entries contents) :
      Message.Conforms catalog holds schema (.mk contents unknown cache)

/-- A content for each entry. -/
inductive ContentsConform (catalog : Catalog) (holds : MessageSchema → Message → Prop) :
    List Entry → List Content → Prop where
  | nil : ContentsConform catalog holds [] []
  | cons (entry : Entry) (content : Content) (entries : List Entry) (contents : List Content)
      (hcontent : Content.Conforms catalog holds entry content)
      (hcontents : ContentsConform catalog holds entries contents) :
      ContentsConform catalog holds (entry :: entries) (content :: contents)

/-- A content of an entry. -/
inductive Content.Conforms (catalog : Catalog) (holds : MessageSchema → Message → Prop) :
    Entry → Content → Prop where
  | singular (name : String) (number : UInt32) (type : ValueType) (optional nonNull : Bool)
      (value : Value) (hvalue : Value.Conforms catalog holds type value) :
      Content.Conforms catalog holds (.singular name number type optional nonNull) (.singular value)
  | repeated (name : String) (number : UInt32) (element : ValueType) (packed : Option Bool)
      (values : List Value)
      (hvalues : ∀ value ∈ values, Value.Conforms catalog holds element value) :
      Content.Conforms catalog holds (.repeated name number element packed) (.repeated values)
  | mapping (name : String) (number : UInt32) (key : ScalarType) (type : ValueType)
      (order : MapOrder) (entries : List (Scalar × Value))
      (hkeys : ∀ entry ∈ entries, entry.1.type = key) (horder : order.Arranges entries)
      (hvalues : ∀ entry ∈ entries, Value.Conforms catalog holds type entry.2) :
      Content.Conforms catalog holds (.map name number key type order) (.mapping entries)
  | unset (name : String) (schema : OneofSchema) :
      Content.Conforms catalog holds (.oneof name schema false) .unset
  | chosen (name : String) (schema : OneofSchema) (required : Bool) (place : Nat) (member : Member)
      (value : Value) (hmember : schema.members[place]? = some member)
      (hvalue : Value.Conforms catalog holds member.type value) :
      Content.Conforms catalog holds (.oneof name schema required) (.chosen place value)

end

/-! ## Induction -/

/-- Properties of values, messages and contents that pass from the parts to the whole. -/
structure Inherits (catalog : Catalog) (holds : MessageSchema → Message → Prop)
    (ofValue : ValueType → Value → Prop) (ofMessage : MessageSchema → Message → Prop)
    (ofContents : List Entry → List Content → Prop) (ofContent : Entry → Content → Prop) :
    Prop where
  scalar : ∀ (type : ScalarType) (scalar : Scalar), scalar.type = type →
    ofValue (.scalar type) (.scalar scalar)
  enumeration : ∀ (schema : EnumSchema) (value : EnumValue),
    ofValue (.enumeration schema) (.enumeration value)
  message : ∀ (name : String) (message : Message), ofMessage (catalog.schema name) message →
    ofValue (.message name) (.message message)
  absent : ∀ inner : ValueType, ofValue (.option inner) .absent
  present : ∀ (inner : ValueType) (value : Value), ofValue inner value →
    ofValue (.option inner) (.present value)
  reference : ∀ (converter : String) (wire : ValueType) (held : HeldForm) (value : Value),
    ofValue wire value → ofValue (.converted converter wire) (.reference held value)
  body : ∀ (schema : MessageSchema) (contents : List Content) (unknown : UnknownFieldSet)
    (cache : SizeCache), holds schema (.mk contents unknown cache) →
    ContentsConform catalog holds schema.entries contents →
    ofContents schema.entries contents → ofMessage schema (.mk contents unknown cache)
  nil : ofContents [] []
  cons : ∀ (entry : Entry) (content : Content) (entries : List Entry) (contents : List Content),
    ofContent entry content → ofContents entries contents →
    ofContents (entry :: entries) (content :: contents)
  singular : ∀ (name : String) (number : UInt32) (type : ValueType) (optional nonNull : Bool)
    (value : Value), value.Conforms catalog holds type → ofValue type value →
    ofContent (.singular name number type optional nonNull) (.singular value)
  repeated : ∀ (name : String) (number : UInt32) (element : ValueType) (packed : Option Bool)
    (values : List Value), (∀ value ∈ values, ofValue element value) →
    ofContent (.repeated name number element packed) (.repeated values)
  mapping : ∀ (name : String) (number : UInt32) (key : ScalarType) (type : ValueType)
    (order : MapOrder) (entries : List (Scalar × Value)),
    (∀ entry ∈ entries, entry.1.type = key) → order.Arranges entries →
    (∀ entry ∈ entries, ofValue type entry.2) →
    ofContent (.map name number key type order) (.mapping entries)
  unset : ∀ (name : String) (schema : OneofSchema), ofContent (.oneof name schema false) .unset
  chosen : ∀ (name : String) (schema : OneofSchema) (required : Bool) (place : Nat)
    (member : Member) (value : Value), schema.members[place]? = some member →
    ofValue member.type value → ofContent (.oneof name schema required) (.chosen place value)

namespace Inherits

variable {catalog : Catalog} {holds : MessageSchema → Message → Prop}
  {ofValue : ValueType → Value → Prop} {ofMessage : MessageSchema → Message → Prop}
  {ofContents : List Entry → List Content → Prop} {ofContent : Entry → Content → Prop}

mutual

/-- What wholes inherit from their parts holds of everything that conforms. -/
theorem of_value (h : Inherits catalog holds ofValue ofMessage ofContents ofContent) :
    ∀ {type : ValueType} {value : Value}, value.Conforms catalog holds type → ofValue type value
  | _, _, .scalar type scalar htype => h.scalar type scalar htype
  | _, _, .enumeration schema value => h.enumeration schema value
  | _, _, .message name message hmessage => h.message name message (h.of_message hmessage)
  | _, _, .absent inner => h.absent inner
  | _, _, .present inner value hvalue => h.present inner value (h.of_value hvalue)
  | _, _, .reference converter wire held value hvalue =>
      h.reference converter wire held value (h.of_value hvalue)

theorem of_message (h : Inherits catalog holds ofValue ofMessage ofContents ofContent) :
    ∀ {schema : MessageSchema} {message : Message}, message.Conforms catalog holds schema →
      ofMessage schema message
  | _, _, .mk schema contents unknown cache hholds hcontents =>
      h.body schema contents unknown cache hholds hcontents (h.of_contents hcontents)

theorem of_contents (h : Inherits catalog holds ofValue ofMessage ofContents ofContent) :
    ∀ {entries : List Entry} {contents : List Content},
      ContentsConform catalog holds entries contents → ofContents entries contents
  | _, _, .nil => h.nil
  | _, _, .cons entry content entries contents hcontent hcontents =>
      h.cons entry content entries contents (h.of_content hcontent) (h.of_contents hcontents)

theorem of_content (h : Inherits catalog holds ofValue ofMessage ofContents ofContent) :
    ∀ {entry : Entry} {content : Content}, content.Conforms catalog holds entry →
      ofContent entry content
  | _, _, .singular name number type optional nonNull value hvalue =>
      h.singular name number type optional nonNull value hvalue (h.of_value hvalue)
  | _, _, .repeated name number element packed values hvalues =>
      h.repeated name number element packed values fun value hmem =>
        h.of_value (hvalues value hmem)
  | _, _, .mapping name number key type order entries hkeys horder hvalues =>
      h.mapping name number key type order entries hkeys horder fun entry hmem =>
        h.of_value (hvalues entry hmem)
  | _, _, .unset name schema => h.unset name schema
  | _, _, .chosen name schema required place member value hmember hvalue =>
      h.chosen name schema required place member value hmember (h.of_value hvalue)

end

end Inherits

section Combining

variable {catalog : Catalog} {holds holds' both : MessageSchema → Message → Prop}

theorem inherits_both (hboth : ∀ schema message, holds schema message → holds' schema message →
    both schema message) :
    Inherits catalog holds
      (fun type value => value.Conforms catalog holds' type → value.Conforms catalog both type)
      (fun schema message =>
        message.Conforms catalog holds' schema → message.Conforms catalog both schema)
      (fun entries contents =>
        ContentsConform catalog holds' entries contents →
          ContentsConform catalog both entries contents)
      (fun entry content =>
        content.Conforms catalog holds' entry → content.Conforms catalog both entry) where
  scalar type scalar htype _ := .scalar type scalar htype
  enumeration schema value _ := .enumeration schema value
  message name message hmessage h := by
    cases h with
    | message _ _ h => exact .message name message (hmessage h)
  absent inner _ := .absent inner
  present inner value hvalue h := by
    cases h with
    | present _ _ h => exact .present inner value (hvalue h)
  reference converter wire held value hvalue h := by
    cases h with
    | reference _ _ _ _ h => exact .reference converter wire held value (hvalue h)
  body schema contents unknown cache hholds _ hcontents h := by
    cases h with
    | mk _ _ _ _ hholds' h =>
        exact .mk schema contents unknown cache (hboth _ _ hholds hholds') (hcontents h)
  nil _ := .nil
  cons entry content entries contents hcontent hcontents h := by
    cases h with
    | cons _ _ _ _ h h' => exact .cons entry content entries contents (hcontent h) (hcontents h')
  singular name number type optional nonNull value _ hvalue h := by
    cases h with
    | singular _ _ _ _ _ _ h => exact .singular name number type optional nonNull value (hvalue h)
  repeated name number element packed values hvalues h := by
    cases h with
    | repeated _ _ _ _ _ h =>
        exact .repeated name number element packed values fun value hmem =>
          hvalues value hmem (h value hmem)
  mapping name number key type order entries hkeys horder hvalues h := by
    cases h with
    | mapping _ _ _ _ _ _ _ _ h =>
        exact .mapping name number key type order entries hkeys horder fun entry hmem =>
          hvalues entry hmem (h entry hmem)
  unset name schema _ := .unset name schema
  chosen name schema required place member value hmember hvalue h := by
    cases h with
    | chosen _ _ _ _ member' _ hmember' h =>
        -- Both derivations speak of the member at the same place.
        rw [hmember] at hmember'
        cases hmember'
        exact .chosen name schema required place member value hmember (hvalue h)

/-- What follows from two properties that hold of all messages in a message holds of them too. -/
theorem Message.Conforms.combine {schema : MessageSchema} {message : Message}
    (h : message.Conforms catalog holds schema) (h' : message.Conforms catalog holds' schema)
    (hboth : ∀ schema message, holds schema message → holds' schema message →
      both schema message) : message.Conforms catalog both schema :=
  (inherits_both hboth).of_message h h'

theorem Message.Conforms.mono {schema : MessageSchema} {message : Message}
    (h : message.Conforms catalog holds schema)
    (hmono : ∀ schema message, holds schema message → both schema message) :
    message.Conforms catalog both schema :=
  h.combine h fun schema message hholds _ => hmono schema message hholds

theorem Value.Conforms.mono {type : ValueType} {value : Value}
    (h : value.Conforms catalog holds type)
    (hmono : ∀ schema message, holds schema message → both schema message) :
    value.Conforms catalog both type :=
  (inherits_both fun schema message hholds _ => hmono schema message hholds).of_value h h

end Combining

end ProtoWire
