import ProtoWire.Proofs.Ordering
import ProtoWire.Proofs.Written

/-! # Messages as they are received

A message that is written and read back is the message it was up to what the bytes do not tell: the
sign of a zero that is left out, which of several variants with one number was meant, the form in
which a converted value is held, the order of a map without one, and remembered sizes.
-/

namespace ProtoWire

/-! ## Zeros -/

/-- The scalar with a positive zero in place of a negative one. -/
def Scalar.positive : Scalar → Scalar
  | .double bits => .double (if FloatBits.isZero64 bits then 0 else bits)
  | .float bits => .float (if FloatBits.isZero32 bits then 0 else bits)
  | other => other

/-- The value with a positive zero in place of a negative one, unless it says that it is present. -/
def Value.positive : Value → Value
  | .scalar number => .scalar number.positive
  | .reference held wire => .reference held wire.positive
  | other => other

theorem Scalar.positive_of_isDefault {scalar : Scalar} (hdefault : scalar.isDefault = true) :
    scalar.positive = scalar.type.zero := by
  cases scalar with
  | double bits | float bits =>
      simp only [isDefault] at hdefault
      simp only [positive, hdefault, if_true, type, ScalarType.zero]
  | bool value =>
      cases value with
      | false => rfl
      | true => cases hdefault
  | bytes payload =>
      rw [isDefault, List.isEmpty_iff] at hdefault
      rw [hdefault]
      rfl
  | _ =>
      simp only [isDefault, beq_iff_eq] at hdefault
      rw [hdefault]
      rfl

theorem Scalar.positive_of_not_isDefault {scalar : Scalar} (hdefault : scalar.isDefault = false) :
    scalar.positive = scalar := by
  cases scalar with
  | double bits | float bits =>
      simp only [isDefault] at hdefault
      simp only [positive, hdefault, Bool.false_eq_true, if_false]
  | _ => rfl

/-! ## Rebuilding -/

/-- What is made of the parts of a message when it is rebuilt. -/
structure Rewriting where
  /-- The value of a single field that is left out when it is a default. -/
  singular : Value → Value
  enumeration : EnumSchema → EnumValue → EnumValue
  held : HeldForm → HeldForm
  entries : List (Scalar × Value) → List (Scalar × Value)
  cache : SizeCache → SizeCache

mutual

/-- The value rebuilt from its parts. -/
def Value.rebuild (catalog : Catalog) (rewriting : Rewriting) : ValueType → Value → Value
  | .enumeration schema, .enumeration value => .enumeration (rewriting.enumeration schema value)
  | .message name, .message message =>
      .message (message.rebuild catalog rewriting (catalog.schema name))
  | .option inner, .present value => .present (value.rebuild catalog rewriting inner)
  | .converted _ wire, .reference held value =>
      .reference (rewriting.held held) (value.rebuild catalog rewriting wire)
  | _, value => value

/-- The message rebuilt from its parts; the captured records stay. -/
def Message.rebuild (catalog : Catalog) (rewriting : Rewriting) (schema : MessageSchema) :
    Message → Message
  | .mk contents unknown cache =>
      .mk (rebuildContents catalog rewriting schema.entries contents) unknown
        (rewriting.cache cache)

/-- The contents of entries rebuilt from their parts. -/
def rebuildContents (catalog : Catalog) (rewriting : Rewriting) :
    List Entry → List Content → List Content
  | entry :: entries, content :: contents =>
      content.rebuild catalog rewriting entry :: rebuildContents catalog rewriting entries contents
  | _, contents => contents

/-- The content of an entry rebuilt from its parts. -/
def Content.rebuild (catalog : Catalog) (rewriting : Rewriting) : Entry → Content → Content
  | .singular _ _ type _ nonNull, .singular value =>
      if nonNull then .singular (value.rebuild catalog rewriting type)
      else .singular (rewriting.singular (value.rebuild catalog rewriting type))
  | .repeated _ _ element _, .repeated values =>
      .repeated (rebuildValues catalog rewriting element values)
  | .map _ _ _ type _, .mapping entries =>
      .mapping (rewriting.entries (rebuildEntries catalog rewriting type entries))
  | .oneof _ schema _, .chosen place value =>
      match schema.members[place]? with
      | some member => .chosen place (value.rebuild catalog rewriting member.type)
      | none => .chosen place value
  | _, content => content

/-- Values rebuilt from their parts. -/
def rebuildValues (catalog : Catalog) (rewriting : Rewriting) (type : ValueType) :
    List Value → List Value
  | [] => []
  | value :: values =>
      value.rebuild catalog rewriting type :: rebuildValues catalog rewriting type values

/-- The entries of a map with their values rebuilt from their parts. -/
def rebuildEntries (catalog : Catalog) (rewriting : Rewriting) (type : ValueType) :
    List (Scalar × Value) → List (Scalar × Value)
  | [] => []
  | (key, value) :: entries =>
      (key, value.rebuild catalog rewriting type) ::
        rebuildEntries catalog rewriting type entries

end

section Lists

variable {catalog : Catalog} {rewriting : Rewriting} {type : ValueType}

theorem rebuildValues_eq (values : List Value) :
    rebuildValues catalog rewriting type values =
      values.map fun value => value.rebuild catalog rewriting type := by
  induction values with
  | nil => rfl
  | cons value values ih => rw [rebuildValues, ih, List.map_cons]

theorem rebuildEntries_eq (entries : List (Scalar × Value)) :
    rebuildEntries catalog rewriting type entries =
      entries.map fun entry => (entry.1, entry.2.rebuild catalog rewriting type) := by
  induction entries with
  | nil => rfl
  | cons entry entries ih => rw [rebuildEntries, ih, List.map_cons]

variable {other : Catalog} {change : Value → Value}

/-- A change that rebuilding makes good to each value it makes good to all of them. -/
theorem rebuildValues_map {values : List Value} (hvalues : ∀ value ∈ values,
    (change value).rebuild other rewriting type = value.rebuild catalog rewriting type) :
    rebuildValues other rewriting type (values.map change) =
      rebuildValues catalog rewriting type values := by
  rw [rebuildValues_eq, rebuildValues_eq, List.map_map]
  exact List.map_congr_left hvalues

theorem rebuildEntries_map {entries : List (Scalar × Value)} (hvalues : ∀ entry ∈ entries,
    (change entry.2).rebuild other rewriting type = entry.2.rebuild catalog rewriting type) :
    rebuildEntries other rewriting type (entries.map fun entry => (entry.1, change entry.2)) =
      rebuildEntries catalog rewriting type entries := by
  rw [rebuildEntries_eq, rebuildEntries_eq, List.map_map]
  exact List.map_congr_left fun entry hentry => congrArg (Prod.mk entry.1) (hvalues entry hentry)

end Lists

/-- What writing and reading make of the parts of a message: a zero that is left out comes back
positive, a variant as the first one with its number, a converted value in its wire form, a map in
the order of its keys, and a remembered size not at all. -/
def Rewriting.received : Rewriting where
  singular := Value.positive
  enumeration schema value := schema.ofNumber (schema.number value)
  held _ := .wire
  entries := sortEntries
  cache _ := .empty

/-- Zeros that are left out made positive, and nothing else. -/
def Rewriting.positiveZeros : Rewriting where
  singular := Value.positive
  enumeration _ value := value
  held form := form
  entries entries := entries
  cache cache := cache

/-- A message as it is received when it is written and read back. -/
def Message.asReceived (catalog : Catalog) (schema : MessageSchema) (message : Message) : Message :=
  message.rebuild catalog .received schema

/-- A message with the zeros that are left out made positive. -/
def Message.positiveZeros (catalog : Catalog) (schema : MessageSchema) (message : Message) :
    Message :=
  message.rebuild catalog .positiveZeros schema

/-! ## Values that are left out -/

/-- Whether what an entry is read as when nothing is written has a default. -/
def Entry.defaulted (catalog : Catalog) : Entry → Bool
  | .singular _ _ type _ nonNull => nonNull || (catalog.default? type).isSome
  | .map _ _ _ value _ => (catalog.default? value).isSome
  | _ => true

/-- All message types have the defaults that they are read with. -/
def Catalog.Defaulted (catalog : Catalog) : Prop :=
  ∀ listed ∈ catalog.messages, ∀ entry ∈ listed.2.entries, entry.defaulted catalog = true

instance : DecidablePred Catalog.Defaulted := fun _ =>
  inferInstanceAs (Decidable (∀ _ ∈ _, ∀ _ ∈ _, _))

theorem Catalog.Defaulted.schema {catalog : Catalog} (hdefaulted : catalog.Defaulted)
    (name : String) : ∀ entry ∈ (catalog.schema name).entries, entry.defaulted catalog = true :=
  @Catalog.schema_of_forall catalog
    (fun schema => ∀ entry ∈ schema.entries, entry.defaulted catalog = true) hdefaulted name
    fun _ hentry => (List.not_mem_nil hentry).elim

section Omission

variable {catalog : Catalog} {holds : MessageSchema → Message → Prop}

/-- Where nothing is written, the default is what is received. -/
theorem inherits_default :
    Inherits catalog holds
      (fun type value => value.isOmitted catalog type = true → ∀ levels default,
        type.default? (catalog.defaultMessageWithin? levels) = some default →
          default = (value.rebuild catalog .received type).positive)
      (fun schema message => message.records catalog schema = [] → ∀ levels contents,
        schema.entries.mapM (·.default? (catalog.defaultMessageWithin? levels)) = some contents →
          Message.mk contents .empty .empty = message.asReceived catalog schema)
      (fun entries contents => ∀ dialect, contentsRecords catalog dialect entries contents = [] →
        ∀ levels defaults,
          entries.mapM (·.default? (catalog.defaultMessageWithin? levels)) = some defaults →
            defaults = rebuildContents catalog .received entries contents)
      (fun entry content => ∀ dialect, content.records catalog dialect entry = [] →
        ∀ levels default, entry.default? (catalog.defaultMessageWithin? levels) = some default →
          default = content.rebuild catalog .received entry) where
  scalar type scalar htype homitted levels default hdefault := by
    cases hdefault
    subst htype
    exact congrArg Value.scalar (Scalar.positive_of_isDefault homitted).symm
  enumeration schema value homitted levels default hdefault := by
    cases hdefault
    have hnumber : schema.number value = 0 := beq_iff_eq.mp homitted
    simp only [Value.rebuild, Rewriting.received, hnumber, Value.positive, EnumSchema.zero]
  message name message hmessage homitted levels default hdefault := by
    have hrecords : message.records catalog (catalog.schema name) = [] :=
      List.isEmpty_iff.mp homitted
    -- Each level of default messages is one level of the message that is left out.
    cases levels with
    | zero => cases hdefault
    | succ levels =>
        simp only [ValueType.default?, Catalog.defaultMessageWithin?, Option.map_eq_some_iff,
          Option.bind_eq_bind, Option.bind_eq_some_iff] at hdefault
        obtain ⟨_, ⟨contents, hcontents, hmade⟩, rfl⟩ := hdefault
        cases hmade
        exact congrArg Value.message (hmessage hrecords levels contents hcontents)
  absent inner _ levels default hdefault := by
    cases hdefault
    rfl
  present inner value _ homitted := by cases homitted
  reference converter wire held value hvalue homitted levels default hdefault := by
    obtain ⟨wireDefault, hwire, rfl⟩ := Option.map_eq_some_iff.mp hdefault
    exact congrArg (Value.reference .wire) (hvalue homitted levels wireDefault hwire)
  body schema contents unknown cache _ _ hcontents hrecords levels defaults hdefaults := by
    obtain ⟨hwritten, hunknown⟩ := List.append_eq_nil_iff.mp hrecords
    have hempty : unknown = .empty := congrArg UnknownFieldSet.mk hunknown
    rw [hcontents schema.dialect hwritten levels defaults hdefaults, hempty]
    rfl
  nil dialect _ levels defaults hdefaults := by
    cases hdefaults
    rfl
  cons entry content entries contents hcontent hcontents dialect hrecords levels defaults
      hdefaults := by
    obtain ⟨hfirst, hrest⟩ := List.append_eq_nil_iff.mp hrecords
    simp only [List.mapM_cons, Option.bind_eq_bind, Option.bind_eq_some_iff] at hdefaults
    obtain ⟨default, hdefault, defaults, hothers, hmade⟩ := hdefaults
    cases hmade
    rw [hcontent dialect hfirst levels default hdefault,
      hcontents dialect hrest levels defaults hothers, rebuildContents]
  singular name number type optional nonNull value _ hvalue dialect hrecords levels default
      hdefault := by
    obtain ⟨typeDefault, htype, rfl⟩ := Option.map_eq_some_iff.mp hdefault
    rw [Content.records] at hrecords
    split at hrecords
    next => cases hrecords
    next hwritten =>
      simp only [Bool.or_eq_true, Bool.not_eq_true', not_or, Bool.not_eq_false,
        Bool.not_eq_true] at hwritten
      obtain ⟨rfl, homitted⟩ := hwritten
      rw [hvalue homitted levels typeDefault htype]
      rfl
  repeated name number element packed values _ dialect hrecords levels default hdefault := by
    cases hdefault
    cases values with
    | nil => rfl
    | cons value values =>
        rw [Content.records, if_neg (by simp)] at hrecords
        split at hrecords <;> cases hrecords
  mapping name number key type order entries _ _ _ dialect hrecords levels default hdefault := by
    cases hdefault
    cases entries with
    | nil => rfl
    | cons entry entries => cases hrecords
  unset name schema dialect _ levels default hdefault := by
    cases hdefault
    rfl
  chosen name schema required place member value hmember _ dialect hrecords := by
    rw [Content.records, hmember] at hrecords
    cases hrecords

/-- A value that is left out is received as the default of its type. -/
theorem default_eq_received {type : ValueType} {value default : Value}
    (hvalue : value.Conforms catalog holds type) (homitted : value.isOmitted catalog type = true)
    (hdefault : catalog.default? type = some default) :
    default = (value.rebuild catalog .received type).positive :=
  inherits_default.of_value hvalue homitted (catalog.messages.length + 1) default hdefault

/-- The zeros of a value that is written stay as they are. -/
theorem positive_of_not_isOmitted (rewriting : Rewriting) {type : ValueType} {value : Value}
    (hvalue : value.Conforms catalog holds type) (hwritten : value.isOmitted catalog type = false) :
    (value.rebuild catalog rewriting type).positive = value.rebuild catalog rewriting type := by
  induction type generalizing value with
  | scalar type =>
      cases hvalue with
      | scalar _ scalar _ => exact congrArg Value.scalar (Scalar.positive_of_not_isDefault hwritten)
  | enumeration schema | message name | option inner =>
      cases hvalue <;> rfl
  | converted converter wire ih =>
      cases hvalue with
      | reference _ _ held value hvalue =>
          exact congrArg (Value.reference (rewriting.held held)) (ih hvalue hwritten)

end Omission

end ProtoWire
