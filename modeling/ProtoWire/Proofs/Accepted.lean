import ProtoWire.Proofs.Declared
import ProtoWire.Proofs.Rules

/-! # Accepted messages

What the declaration of a message has to be, said in terms of what its attributes are read as, and
the rules that this comes down to in the order in which they are tested. The options of a field tell
its kind, and the kind tells the options again.
-/

namespace ProtoWire

namespace Source.TypeText

/-- A path whose last segment has the name and a type as its first argument. -/
def IsOf (name : String) (type : TypeText) : Prop :=
  ∃ text argument, type = .container text name argument

theorem isOf_of_inner {type argument : TypeText} {name : String}
    (hinner : type.inner? name = some argument) : type.IsOf name := by
  cases type with
  | plain text => cases hinner
  | container text found inner =>
      rw [inner?] at hinner
      split at hinner
      next hname => exact ⟨text, inner, hname ▸ rfl⟩
      next => cases hinner

theorem not_isOf_of_inner {type : TypeText} {name : String} (hinner : type.inner? name = none) :
    ¬ type.IsOf name := by
  rintro ⟨text, argument, rfl⟩
  rw [inner?, if_pos rfl] at hinner
  cases hinner

end Source.TypeText

theorem Dialect.isSome_ofKeyword_iff (keyword : String) :
    (ofKeyword? keyword).isSome = true ↔ keyword = "proto2" ∨ keyword = "proto3" := by
  rw [ofKeyword?, List.find?_isSome]
  simp only [List.mem_cons, List.not_mem_nil, or_false, exists_eq_or_imp, exists_eq_left,
    beq_iff_eq]
  exact or_congr eq_comm eq_comm

namespace Declaration

/-! ## Numbers that are declared -/

theorem enforces_checkNumber (number : UInt32) :
    Enforces (checkNumber number) [⟨Tag.Allowed number, .invalidNumber number⟩] :=
  .guard (refusesNumber_iff number) fun _ => .ok ()

/-- A number has to be there and may be carried. -/
def numberRules (missing : Fault) (number : Option UInt32) : List Rule :=
  ⟨number.isSome = true, missing⟩ ::
    number.toList.map fun number => ⟨Tag.Allowed number, .invalidNumber number⟩

theorem followed_numberRules {missing : Fault} {number : Option UInt32} :
    Followed (numberRules missing number) ↔ ∃ given, number = some given ∧ Tag.Allowed given := by
  cases number <;> simp [numberRules]

theorem enforces_missing {α : Type} (missing : Fault) :
    Enforces (.error missing : Except Fault α) (numberRules missing none) :=
  .fail Bool.false_ne_true

theorem enforces_given {α : Type} (missing : Fault) (number : UInt32) (value : α) :
    Enforces (checkNumber number >>= fun _ => .ok value) (numberRules missing (some number)) :=
  .skip rfl ((enforces_checkNumber number).map fun _ => value)

/-! ## Options that go together -/

namespace FieldOptions

/-- The options of a field that exclude one another. -/
def flags (options : FieldOptions) : List Bool :=
  [options.optional, options.nonNull, options.repeated, options.map, options.oneof,
    options.unknown, options.sizeCache]

/-- No two of them are set. -/
def Exclusive (options : FieldOptions) : Prop :=
  options.flags.Pairwise fun flag other => ¬ (flag = true ∧ other = true)

/-- Whether a field needs a number: it is no oneof and not special. -/
def isNumbered (options : FieldOptions) : Bool :=
  !options.oneof && !options.unknown && !options.sizeCache

/-- The number that a field carries. One that is given to a special field has no effect. -/
def carried (options : FieldOptions) : Option UInt32 :=
  if options.isNumbered then options.number else none

theorem carried_carried (options : FieldOptions) :
    carried { options with number := options.carried } = options.carried := by
  change (if options.isNumbered then options.carried else none) = options.carried
  rw [carried]
  split <;> rfl

/-- Options of a field that go together. -/
structure Sound (options : FieldOptions) : Prop where
  required : options.required = true → options.oneof = true
  packed : options.packed.isSome = true → options.repeated = true
  exclusive : options.Exclusive
  oneof : options.oneof = true → options.number = none
  numbered : options.isNumbered = true → ∃ number, options.number = some number ∧ Tag.Allowed number

/-- The rules for the options of a field. -/
def rules (options : FieldOptions) : List Rule := [
  ⟨options.required = true → options.oneof = true, .requiredOutsideOneof⟩,
  ⟨options.packed.isSome = true → options.repeated = true, .packedOutsideRepeated⟩,
  ⟨options.Exclusive, .conflictingOptions⟩,
  ⟨options.oneof = true → options.number = none, .numberedOneof⟩] ++
    if options.isNumbered then numberRules .missingNumber options.number else []

theorem followed_rules {options : FieldOptions} : Followed options.rules ↔ options.Sound := by
  have hnumber : Followed (if options.isNumbered then numberRules .missingNumber options.number
      else []) ↔ (options.isNumbered = true →
        ∃ number, options.number = some number ∧ Tag.Allowed number) := by
    split
    next hnumbered => rw [followed_numberRules, imp_iff_right hnumbered]
    next hnumbered => simp [hnumbered]
  rw [rules, followed_append, hnumber]
  simp only [followed_cons, followed_nil, and_true]
  constructor
  · rintro ⟨⟨hrequired, hpacked, hexclusive, honeof⟩, hnumbered⟩
    exact ⟨hrequired, hpacked, hexclusive, honeof, hnumbered⟩
  · intro h
    exact ⟨⟨h.required, h.packed, h.exclusive, h.oneof⟩, h.numbered⟩

theorem count_true_le_one_iff (flags : List Bool) : flags.count true ≤ 1 ↔
    flags.Pairwise fun flag other => ¬ (flag = true ∧ other = true) := by
  induction flags with
  | nil => simp
  | cons flag flags ih =>
      rw [List.pairwise_cons, ← ih, List.count_cons]
      cases flag with
      | false => simp
      | true =>
          have hnone : flags.count true = 0 ↔ ∀ other ∈ flags, other ≠ true := by
            rw [List.count_eq_zero]
            exact ⟨fun h other hother hset => h (hset ▸ hother), fun h hset => h true hset rfl⟩
          simp only [beq_self_eq_true, if_true, true_and]
          rw [← hnone]
          omega

theorem conflict_iff (options : FieldOptions) :
    1 < options.exclusiveCount ↔ ¬ options.Exclusive := by
  rw [← Nat.not_le]
  exact not_congr (count_true_le_one_iff options.flags)

/-- What it means that no two flags are set, flag by flag. -/
theorem exclusive_iff (options : FieldOptions) : options.Exclusive ↔
    (¬ (options.optional ∧ options.nonNull) ∧ ¬ (options.optional ∧ options.repeated) ∧
      ¬ (options.optional ∧ options.map) ∧ ¬ (options.optional ∧ options.oneof) ∧
      ¬ (options.optional ∧ options.unknown) ∧ ¬ (options.optional ∧ options.sizeCache)) ∧
    (¬ (options.nonNull ∧ options.repeated) ∧ ¬ (options.nonNull ∧ options.map) ∧
      ¬ (options.nonNull ∧ options.oneof) ∧ ¬ (options.nonNull ∧ options.unknown) ∧
      ¬ (options.nonNull ∧ options.sizeCache)) ∧
    (¬ (options.repeated ∧ options.map) ∧ ¬ (options.repeated ∧ options.oneof) ∧
      ¬ (options.repeated ∧ options.unknown) ∧ ¬ (options.repeated ∧ options.sizeCache)) ∧
    (¬ (options.map ∧ options.oneof) ∧ ¬ (options.map ∧ options.unknown) ∧
      ¬ (options.map ∧ options.sizeCache)) ∧
    (¬ (options.oneof ∧ options.unknown) ∧ ¬ (options.oneof ∧ options.sizeCache)) ∧
    ¬ (options.unknown ∧ options.sizeCache) := by
  simp only [Exclusive, flags, List.pairwise_cons, List.mem_cons, forall_eq_or_imp, forall_eq,
    List.not_mem_nil, false_imp_iff, implies_true, List.Pairwise.nil, and_true, or_false]

/-- The kind of a field is told exactly if its options go together, and otherwise the first rule
that they break is reported. -/
theorem enforces_kind (options : FieldOptions) : Enforces options.kind options.rules := by
  rw [kind, rules]
  refine .guard (by simp) fun _ => .guard (by simp) fun _ => ?_
  refine .guard options.conflict_iff fun hexclusive => ?_
  rw [exclusive_iff] at hexclusive
  cases hunknown : options.unknown with
  | true =>
      have hnot : options.isNumbered = false := by simp [isNumbered, hunknown]
      rw [hnot]
      exact .skip (fun honeof => by simp_all) (.ok _)
  | false =>
  cases hsizeCache : options.sizeCache with
  | true =>
      have hnot : options.isNumbered = false := by simp [isNumbered, hsizeCache]
      rw [hnot]
      exact .skip (fun honeof => by simp_all) (.ok _)
  | false =>
  cases honeof : options.oneof with
  | true =>
      have hnot : options.isNumbered = false := by simp [isNumbered, honeof]
      rw [hnot]
      exact .guard (by simp [Option.isSome_iff_ne_none]) fun _ => .ok _
  | false =>
      have hnumbered : options.isNumbered = true := by
        simp [isNumbered, hunknown, hsizeCache, honeof]
      rw [hnumbered]
      refine .skip (absurd · Bool.false_ne_true) ?_
      cases options.number with
      | none => exact enforces_missing _
      | some number => exact enforces_given _ _ _

end FieldOptions

/-- The options that tell a kind. -/
def FieldKind.options : FieldKind → FieldOptions
  | .singular number optional nonNull => { number := some number, optional, nonNull }
  | .repeated number packed => { number := some number, repeated := true, packed }
  | .map number => { number := some number, map := true }
  | .oneof required => { oneof := true, required }
  | .unknown => { unknown := true }
  | .sizeCache => { sizeCache := true }

/-- The kind tells all options again, save a number that a special field does not carry. -/
theorem FieldOptions.told_of_kind {options : FieldOptions} {told : FieldKind}
    (hkind : options.kind = .ok told) :
    { options with number := options.carried } = told.options := by
  have hsound := followed_rules.mp ((enforces_kind options).followed hkind)
  have hexclusive := options.exclusive_iff.mp hsound.exclusive
  have hrequired : options.oneof = false → options.required = false := fun h => by
    simpa [h] using hsound.required
  have hpacked : options.repeated = false → options.packed = none := fun h => by
    simpa [h] using hsound.packed
  rw [kind] at hkind
  -- The options are known to go together, so only the ways to tell a kind are left.
  split at hkind
  · cases hkind
  split at hkind
  · cases hkind
  split at hkind
  · cases hkind
  split at hkind
  next hunknown =>
    cases hkind
    simp_all [FieldKind.options, carried, isNumbered]
  split at hkind
  next hsizeCache =>
    cases hkind
    simp_all [FieldKind.options, carried, isNumbered]
  split at hkind
  next honeof =>
    split at hkind
    · cases hkind
    cases hkind
    simp_all [FieldKind.options, carried, isNumbered]
  split at hkind
  · cases hkind
  next given hgiven =>
    obtain ⟨_, -, hmade⟩ := exists_of_bind_ok hkind
    cases hmade
    rw [numberedKind]
    split
    next hmap => simp_all [FieldKind.options, carried, isNumbered]
    split
    next hrepeated => simp_all [FieldKind.options, carried, isNumbered]
    next => simp_all [FieldKind.options, carried, isNumbered]

/-! ## Fields whose attributes are read -/

/-- A named field whose attributes are read. -/
structure ReadField extends NamedField where
  options : FieldOptions
  isRead : readOptions FieldOptions.table {} attributes = .ok options

namespace ReadField

variable {field : ReadField} {fields : List ReadField} {made : MessageField}
  {others : List MessageField}

/-- A field of a message is made from a field that was read: name and type are the same, and the
kind tells the options. -/
def Makes (field : ReadField) (made : MessageField) : Prop :=
  made.name = field.name ∧ made.type = field.type ∧
    { field.options with number := field.options.carried } = made.kind.options

theorem toMessageField_eq (field : ReadField) : field.toMessageField =
    field.options.kind >>= fun kind => .ok ⟨field.name, field.type, kind⟩ := by
  rw [NamedField.toMessageField, field.isRead]
  rfl

theorem enforces_toMessageField (field : ReadField) :
    Enforces field.toMessageField field.options.rules := by
  rw [toMessageField_eq]
  exact field.options.enforces_kind.map _

theorem makes_of_toMessageField (hmade : field.toMessageField = .ok made) : field.Makes made := by
  rw [toMessageField_eq] at hmade
  obtain ⟨kind, hkind, hmade⟩ := exists_of_bind_ok hmade
  cases hmade
  exact ⟨rfl, rfl, FieldOptions.told_of_kind hkind⟩

/-- Whatever looks at no number but the one that is carried sees in the kind what it sees in the
options. -/
theorem Makes.see_eq {α : Type} (hmakes : field.Makes made) (see : FieldOptions → α)
    (hsee : ∀ options, see { options with number := options.carried } = see options) :
    see field.options = see made.kind.options := by
  rw [← hmakes.2.2]
  exact (hsee field.options).symm

theorem Makes.number_eq (hmakes : field.Makes made) :
    made.kind.number? = field.options.carried := by
  rw [hmakes.see_eq FieldOptions.carried FieldOptions.carried_carried]
  cases made.kind <;> rfl

theorem Makes.isUnknown_eq (hmakes : field.Makes made) :
    (made.kind == .unknown) = field.options.unknown := by
  rw [hmakes.see_eq FieldOptions.unknown fun _ => rfl]
  cases made.kind <;> rfl

theorem Makes.isSizeCache_eq (hmakes : field.Makes made) :
    (made.kind == .sizeCache) = field.options.sizeCache := by
  rw [hmakes.see_eq FieldOptions.sizeCache fun _ => rfl]
  cases made.kind <;> rfl

end ReadField

/-! ## All fields -/

/-- No number is one that was seen before. -/
def freshRules (seen : List UInt32) : List UInt32 → List Rule
  | [] => []
  | number :: rest =>
      ⟨number ∉ seen, .repeatedNumber number⟩ :: freshRules (seen ++ [number]) rest

theorem followed_freshRules {seen numbers : List UInt32} : Followed (freshRules seen numbers) ↔
    numbers.Nodup ∧ ∀ number ∈ numbers, number ∉ seen := by
  induction numbers generalizing seen with
  | nil => simp [freshRules]
  | cons number rest ih =>
      rw [freshRules, followed_cons, ih, List.nodup_cons]
      simp only [List.mem_append, List.mem_singleton, not_or, List.forall_mem_cons]
      grind

theorem enforces_repeatedNumber {next : Except Fault Unit} {more : List Rule}
    (hnext : Enforces next more) (seen : List UInt32) (fields : List MessageField) :
    Enforces ((repeatedNumber? seen fields).elim next fun number => .error (.repeatedNumber number))
      (freshRules seen (fields.filterMap (·.kind.number?)) ++ more) := by
  induction fields generalizing seen with
  | nil => exact hnext
  | cons field rest ih =>
      rw [repeatedNumber?, List.filterMap_cons]
      cases field.kind.number? with
      | none => exact ih seen
      | some number =>
          by_cases hseen : number ∈ seen
          · simp only [List.contains_iff_mem.mpr hseen, if_true]
            exact .fail (not_not_intro hseen)
          · simp only [mt List.contains_iff_mem.mp hseen]
            exact .skip hseen (ih (seen ++ [number]))

/-- The special fields of a kind are at most one. -/
def specialRule (fields : List ReadField) : Rule where
  holds := fields.countP (·.options.unknown) ≤ 1 ∧ fields.countP (·.options.sizeCache) ≤ 1
  fault := .repeatedSpecialField

/-- As many fields are of a special kind as are declared so. -/
theorem length_filter_kind {fields : List ReadField} {made : List MessageField}
    (hmade : List.Forall₂ ReadField.Makes fields made) {special : FieldKind}
    {flag : FieldOptions → Bool}
    (hflag : ∀ {field : ReadField} {made : MessageField}, field.Makes made →
      (made.kind == special) = flag field.options) :
    (made.filter (·.kind == special)).length = fields.countP (flag ·.options) := by
  have hsame := map_eq_of_forall₂ hmade fun _ _ hmakes => (hflag hmakes).symm
  rw [← List.countP_eq_length_filter]
  simpa only [List.countP_map, Function.id_comp] using (congrArg (List.countP id) hsame).symm

theorem enforces_checkFields {fields : List ReadField} {made : List MessageField}
    (hmade : List.Forall₂ ReadField.Makes fields made) :
    Enforces (checkFields made)
      (freshRules [] (fields.filterMap (·.options.carried)) ++ [specialRule fields]) := by
  have hnumbers : made.filterMap (·.kind.number?) = fields.filterMap (·.options.carried) := by
    have hsame := map_eq_of_forall₂ hmade fun _ _ hmakes => hmakes.number_eq.symm
    simpa only [List.filterMap_map, Function.id_comp] using
      (congrArg (List.filterMap id) hsame).symm
  have hchecked : checkFields made = (repeatedNumber? [] made).elim
      (if 1 < (made.filter (·.kind == .unknown)).length
          || 1 < (made.filter (·.kind == .sizeCache)).length then .error .repeatedSpecialField
        else .ok ())
      fun number => .error (.repeatedNumber number) := by
    rw [checkFields]
    cases repeatedNumber? [] made <;> rfl
  rw [hchecked, ← hnumbers]
  refine enforces_repeatedNumber (.guard ?_ fun _ => .ok ()) [] made
  rw [length_filter_kind hmade ReadField.Makes.isUnknown_eq,
    length_filter_kind hmade ReadField.Makes.isSizeCache_eq, Bool.or_eq_true, decide_eq_true_iff,
    decide_eq_true_iff]
  omega

/-- The rules for the type of a field. -/
def ReadField.typeRules (field : ReadField) : List Rule := [
  ⟨field.options.repeated = true → field.type.IsOf "Vec", .repeatedFieldType⟩,
  ⟨field.options.oneof = true → field.options.required = false → field.type.IsOf "Option",
    .oneofFieldType⟩]

theorem ReadField.Makes.enforces_accept {field : ReadField} {made : MessageField}
    (hmakes : field.Makes made) : Enforces made.accept field.typeRules := by
  have hrepeated := hmakes.see_eq FieldOptions.repeated fun _ => rfl
  have honeof := hmakes.see_eq FieldOptions.oneof fun _ => rfl
  have hrequired := hmakes.see_eq FieldOptions.required fun _ => rfl
  obtain ⟨name, type, kind⟩ := made
  obtain ⟨-, rfl, -⟩ := hmakes
  rw [typeRules, hrepeated, honeof, hrequired, MessageField.accept]
  have hunset : ∀ {holds : Prop}, false = true → holds := (absurd · Bool.false_ne_true)
  cases kind with
  | singular | map | unknown | sizeCache => exact .skip hunset (.skip hunset (.ok _))
  | repeated number packed =>
      dsimp only
      cases hinner : field.type.inner? "Vec" with
      | none => exact .fail fun h => Source.TypeText.not_isOf_of_inner hinner (h rfl)
      | some element =>
          exact .skip (fun _ => Source.TypeText.isOf_of_inner hinner) (.skip hunset (.ok _))
  | oneof required =>
      cases required with
      | true => exact .skip hunset (.skip (fun _ h => hunset h.symm) (.ok _))
      | false =>
          dsimp only
          refine .skip hunset ?_
          cases hinner : field.type.inner? "Option" with
          | none => exact .fail fun h => Source.TypeText.not_isOf_of_inner hinner (h rfl rfl)
          | some type => exact .skip (fun _ _ => Source.TypeText.isOf_of_inner hinner) (.ok _)

/-! ## Messages -/

/-- The named fields of a body. -/
def Body.namedFields : Body → List NamedField
  | .named fields => fields
  | .positional | .unit | .overlapping | .variants _ => []

/-- Whether a body is that of a structure, with fields of any form. -/
def Body.isStructure : Body → Bool
  | .named _ | .positional | .unit => true
  | .overlapping | .variants _ => false

/-- The attributes of a message and those of its named fields are read. -/
structure ReadsAs (declaration : Declaration) (options : MessageOptions)
    (fields : List ReadField) : Prop where
  options : readOptions MessageOptions.table {} declaration.attributes = .ok options
  fields : declaration.body.namedFields = fields.map (·.toNamedField)

/-- What the declaration of a message has to be. -/
structure WellFormed (declaration : Declaration) (options : MessageOptions)
    (fields : List ReadField) : Prop where
  plain : declaration.isGeneric = false
  named : ∃ named, declaration.body = .named named
  dialect : ∀ keyword ∈ options.dialect, keyword = "proto2" ∨ keyword = "proto3"
  sound : ∀ field ∈ fields, field.options.Sound
  distinct : (fields.filterMap (·.options.carried)).Nodup
  unknown : fields.countP (·.options.unknown) ≤ 1
  sizeCache : fields.countP (·.options.sizeCache) ≤ 1
  repeated : ∀ field ∈ fields, field.options.repeated = true → field.type.IsOf "Vec"
  oneof : ∀ field ∈ fields, field.options.oneof = true → field.options.required = false →
    field.type.IsOf "Option"

/-- The rules for what is declared: no parameters, a structure, and named fields in it. -/
def shapeRules (declaration : Declaration) : List Rule := [
  ⟨declaration.isGeneric = false, .genericMessage⟩,
  ⟨declaration.body.isStructure = true, .messageNotStructure⟩,
  ⟨∃ named, declaration.body = .named named, .messageFieldsNotNamed⟩]

/-- The rule for the dialect that is declared. -/
def dialectRules (options : MessageOptions) : List Rule :=
  options.dialect.toList.map fun keyword =>
    ⟨keyword = "proto2" ∨ keyword = "proto3", .unknownDialect keyword⟩

/-- The rules for the declaration of a message, in the order in which they are tested. -/
def messageRules (declaration : Declaration) (options : MessageOptions)
    (fields : List ReadField) : List Rule :=
  shapeRules declaration ++ (dialectRules options ++ (fields.flatMap (·.options.rules) ++
    ((freshRules [] (fields.filterMap (·.options.carried)) ++ [specialRule fields]) ++
      fields.flatMap (·.typeRules))))

theorem enforces_messageFields (declaration : Declaration) :
    Enforces (messageFields declaration) (shapeRules declaration) := by
  rw [messageFields, shapeRules]
  refine .guard (by simp) fun _ => ?_
  cases hbody : declaration.body with
  | named fields => exact .skip rfl (.skip ⟨fields, rfl⟩ (.ok fields))
  | positional | unit => exact .skip rfl (.fail (by simp))
  | overlapping | variants => exact .fail Bool.false_ne_true

theorem enforces_declaredDialect (options : MessageOptions) :
    Enforces options.declaredDialect (dialectRules options) := by
  rw [MessageOptions.declaredDialect, dialectRules]
  cases options.dialect with
  | none => exact .ok _
  | some keyword =>
      have hkeyword := Dialect.isSome_ofKeyword_iff keyword
      dsimp only [Option.toList_some, List.map_cons, List.map_nil]
      cases hfound : Dialect.ofKeyword? keyword with
      | none => exact .fail (hkeyword.not.mp (by rw [hfound]; exact Bool.false_ne_true))
      | some dialect => exact .skip (hkeyword.mp (by rw [hfound]; rfl)) (.ok dialect)

theorem followed_messageRules {declaration : Declaration} {options : MessageOptions}
    {fields : List ReadField} : Followed (messageRules declaration options fields) ↔
      WellFormed declaration options fields := by
  have hnamed : (∃ named, declaration.body = .named named) → declaration.body.isStructure = true := by
    rintro ⟨named, hbody⟩
    rw [hbody]
    rfl
  simp only [messageRules, shapeRules, dialectRules, specialRule, ReadField.typeRules,
    followed_append, followed_cons, followed_nil, and_true, followed_flatMap,
    FieldOptions.followed_rules, followed_freshRules]
  constructor
  · rintro ⟨⟨hplain, -, hnamed⟩, hdialect, hsound, ⟨⟨hdistinct, -⟩, hunknown, hsizeCache⟩, htypes⟩
    refine ⟨hplain, hnamed, fun keyword hkeyword => ?_, hsound, hdistinct, hunknown, hsizeCache,
      fun field hfield => (htypes field hfield).1, fun field hfield => (htypes field hfield).2⟩
    rw [Option.mem_def.mp hkeyword] at hdialect
    exact (followed_cons.mp hdialect).1
  · intro h
    refine ⟨⟨h.plain, hnamed h.named, h.named⟩, ?_, h.sound, ⟨⟨h.distinct, fun _ _ => ?_⟩,
      h.unknown, h.sizeCache⟩, fun field hfield => ⟨h.repeated field hfield, h.oneof field hfield⟩⟩
    · intro rule hrule
      obtain ⟨keyword, hkeyword, rfl⟩ := List.mem_map.mp hrule
      exact h.dialect keyword (Option.mem_toList.mp hkeyword)
    · exact List.not_mem_nil

theorem namedFields_of_messageFields {declaration : Declaration} {fields : List NamedField}
    (hfields : messageFields declaration = .ok fields) : declaration.body.namedFields = fields := by
  rw [messageFields] at hfields
  split at hfields
  · cases hfields
  · cases hbody : declaration.body with
    | named declared =>
        rw [hbody] at hfields
        cases hfields
        rfl
    | positional | unit | overlapping | variants => rw [hbody] at hfields; cases hfields

theorem ReadsAs.enforces_acceptMessage {declaration : Declaration} {options : MessageOptions}
    {fields : List ReadField} (hreads : declaration.ReadsAs options fields) :
    Enforces (acceptMessage declaration) (messageRules declaration options fields) := by
  rw [acceptMessage, messageRules]
  refine (enforces_messageFields declaration).bind fun declared hdeclared => ?_
  rw [hreads.options]
  refine (enforces_declaredDialect options).bind fun dialect _ => ?_
  rw [← namedFields_of_messageFields hdeclared, hreads.fields, List.mapM_map]
  refine (Enforces.mapM fun field _ => field.enforces_toMessageField).bind fun made hmade => ?_
  have hmakes : List.Forall₂ ReadField.Makes fields made :=
    (forall₂_of_mapM_ok hmade).imp fun _ _ => ReadField.makes_of_toMessageField
  refine (enforces_checkFields hmakes).bind fun _ _ => ?_
  refine (Enforces.mapM_of_forall₂ ?_).map _
  exact hmakes.imp fun _ _ => ReadField.Makes.enforces_accept

/-- If its attributes are read, a declaration is accepted as that of a message exactly if it is well
formed. Otherwise the first rule that it breaks is reported: of the shape, the dialect, the options
field by field, the numbers, the special fields, and the types field by field. -/
theorem message_accepted_or_first_fault {declaration : Declaration} {options : MessageOptions}
    {fields : List ReadField} (hreads : declaration.ReadsAs options fields) :
    ((∃ message, acceptMessage declaration = .ok message) ↔
      WellFormed declaration options fields) ∧
    ∀ fault, acceptMessage declaration = .error fault ↔
      FirstBroken (messageRules declaration options fields) fault :=
  ⟨hreads.enforces_acceptMessage.ok_iff.trans followed_messageRules,
    hreads.enforces_acceptMessage⟩

open Code (optionsOf)

/-- The fields of an order: a number, then a list that is a map too and has a reserved number, and
a note under the number of the first field. -/
def orderFields : List ReadField := [
  { name := .ofString "number", type := .plain "u64"
    attributes := optionsOf [.word "tag", .symbol '=' false, .literal "1"]
    options := { number := some 1 }
    isRead := by cbv },
  { name := .ofString "items", type := .container "Vec<Item>" "Vec" (.plain "Item")
    attributes := optionsOf [.word "tag", .symbol '=' false, .literal "19000", .symbol ',' false,
      .word "repeated", .symbol ',' false, .word "map"]
    options := { number := some 19000, repeated := true, map := true }
    isRead := by cbv },
  { name := .ofString "note", type := .plain "String"
    attributes := optionsOf [.word "tag", .symbol '=' false, .literal "1"]
    options := { number := some 1 }
    isRead := by cbv }]

/-- Of the faults of an order the conflict is the first. -/
theorem order_conflict_first :
    let order : Declaration :=
      ⟨.ofString "Order", false, [], .named (orderFields.map (·.toNamedField))⟩
    order.ReadsAs {} orderFields ∧ ¬ WellFormed order {} orderFields ∧
      FirstBroken (messageRules order {} orderFields) .conflictingOptions := by
  intro order
  have hreads : order.ReadsAs {} orderFields := ⟨rfl, rfl⟩
  have hrefused : acceptMessage order = .error .conflictingOptions := by cbv
  obtain ⟨haccepted, hfault⟩ := message_accepted_or_first_fault hreads
  refine ⟨hreads, fun hformed => ?_, (hfault _).mp hrefused⟩
  obtain ⟨message, hmessage⟩ := haccepted.mpr hformed
  rw [hrefused] at hmessage
  cases hmessage

/-- The fields of a counter: a count, and all other records under the same number. -/
def counterFields : List ReadField := [
  { name := .ofString "count", type := .plain "u64"
    attributes := optionsOf [.word "tag", .symbol '=' false, .literal "1"]
    options := { number := some 1 }
    isRead := by cbv },
  { name := .ofString "others", type := .plain "UnknownFieldSet"
    attributes := optionsOf [.word "unknown", .symbol ',' false, .word "tag", .symbol '=' false,
      .literal "1"]
    options := { number := some 1, unknown := true }
    isRead := by cbv }]

/-- A counter is accepted though both of its fields are given the number 1. -/
theorem number_of_special_field_unchecked :
    let counter : Declaration :=
      ⟨.ofString "Counter", false, [], .named (counterFields.map (·.toNamedField))⟩
    counter.ReadsAs {} counterFields ∧ (∃ message, acceptMessage counter = .ok message) ∧
      ¬ (counterFields.filterMap (·.options.number)).Nodup := by
  intro counter
  refine ⟨⟨rfl, rfl⟩, ?_, by decide⟩
  exact ⟨⟨.ofString "Counter", "Counter", .proto3,
    [⟨.ofString "count", .plain "u64", .singular 1 false false⟩,
      ⟨.ofString "others", .plain "UnknownFieldSet", .unknown⟩]⟩, by cbv⟩

end Declaration

end ProtoWire
