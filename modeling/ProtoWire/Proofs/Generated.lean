import Mathlib.Data.Set.List
import ProtoWire.Proofs.Accepted

/-! # The fields in the code of a message

The entries of the descriptor, the steps of decoding, the statements that encode a message and the
terms of its size are worked out from the fields apart from one another. Here it is read off each
part which fields it is about and what it uses of them, and this is told from the options that are
declared, so that no part leaves out a field, treats one twice or takes it for another one.
-/

namespace ProtoWire

/-! ## What code uses of a field -/

namespace Code

open Declaration (Identifier)

/-- The form of a field in code. -/
inductive FieldForm where
  | singular
  | repeated
  | map
  | oneof
  | unknown
  | sizeCache
deriving DecidableEq, Repr

/-- What a piece of code uses of the field it is about. -/
structure Usage where
  form : FieldForm
  number : Option UInt32 := none
  nonNull : Bool := false
  packing : Option Packing := none
  required : Bool := false
deriving Repr

/-- The name that an entry is under. -/
def EntryCode.name : EntryCode → String
  | .singular _ name _ _ _ | .repeated _ name _ | .map _ name | .oneof name _ _ => name

/-- What an entry uses. -/
def EntryCode.usage : EntryCode → Usage
  | .singular number _ _ _ nonNull => { form := .singular, number := some number, nonNull }
  | .repeated number _ packing =>
      { form := .repeated, number := some number, packing := some packing }
  | .map number _ => { form := .map, number := some number }
  | .oneof _ _ required => { form := .oneof, required }

/-- The field that a statement or a term is about. -/
def OutputCode.field : OutputCode → Identifier
  | .singular field _ _ | .repeated field _ _ | .map field _ | .oneof field _ | .unknown field =>
      field

/-- What a statement or a term uses. -/
def OutputCode.usage : OutputCode → Usage
  | .singular _ number nonNull => { form := .singular, number := some number, nonNull }
  | .repeated _ number packing =>
      { form := .repeated, number := some number, packing := some packing }
  | .map _ number => { form := .map, number := some number }
  | .oneof _ required => { form := .oneof, required }
  | .unknown _ => { form := .unknown }

/-- The names of the tags that lead to an arm. -/
def ArmCode.tags : ArmCode → List String
  | .present tag _ _ | .replace tag _ _ | .insert tag _ => [tag]
  | .append tag packedTag _ _ => [tag, packedTag]

/-- The variable that an arm changes. -/
def ArmCode.target : ArmCode → String
  | .present _ name _ | .replace _ name _ | .append _ _ name _ | .insert _ name => name

/-! ## The names of tags -/

theorem toList_tagName (place : Nat) :
    (tagName place).toList = "__TAG_".toList ++ Nat.toDigits 10 place := by
  simp only [tagName, String.toList_append, Nat.toString_eq_ofList_toDigits, String.toList_ofList]
  rfl

theorem toList_packedTagName (place : Nat) :
    (packedTagName place).toList = (tagName place).toList ++ "_PACKED".toList := by
  simp only [packedTagName, toList_tagName, String.toList_append, Nat.toString_eq_ofList_toDigits,
    String.toList_ofList]
  rfl

theorem tagName_injective : Function.Injective tagName := by
  intro place other hname
  have hlists := congrArg String.toList hname
  rw [toList_tagName, toList_tagName] at hlists
  have hdigits := List.append_cancel_left hlists
  rw [← Nat.repr_inj, Nat.repr_eq_ofList_toDigits, Nat.repr_eq_ofList_toDigits, hdigits]

theorem packedTagName_injective : Function.Injective packedTagName := by
  intro place other hname
  have hlists := congrArg String.toList hname
  rw [toList_packedTagName, toList_packedTagName] at hlists
  exact tagName_injective (String.toList_inj.mp (List.append_cancel_right hlists))

/-- No tag has the name of a packed one, whatever the places: a number has no underscore. -/
theorem tagName_ne_packedTagName (place other : Nat) : tagName place ≠ packedTagName other := by
  intro hname
  have hlists := congrArg String.toList hname
  rw [toList_packedTagName, toList_tagName, toList_tagName, List.append_assoc] at hlists
  have hdigits := List.append_cancel_left hlists
  refine Nat.underscore_not_in_toDigits (n := place) ?_
  rw [hdigits]
  exact List.mem_append_right _ (by decide)

end Code

/-! ## What the options of a field tell of its code -/

namespace Declaration

open Code (FieldForm FieldStart Usage armCode? attemptCode? encodeCode? entryCode? fieldCode
  packedTagName sizeCode? tagConstants tagName variableCode? variableName)
open Source (TypeText)

namespace FieldOptions

/-- The form that options tell. -/
def form (options : FieldOptions) : FieldForm :=
  if options.unknown then .unknown
  else if options.sizeCache then .sizeCache
  else if options.oneof then .oneof
  else if options.map then .map
  else if options.repeated then .repeated
  else .singular

/-- Whether a field is one of the message itself and not special. -/
def isCovered (options : FieldOptions) : Bool := !options.unknown && !options.sizeCache

/-- What code is to use of a field with options and a type. -/
def usage (dialect : Dialect) (type : TypeText) (options : FieldOptions) : Usage where
  form := options.form
  number := options.carried
  nonNull := options.nonNull
  packing := if options.repeated then
      (type.inner? "Vec").map fun element => ⟨dialect, element, options.packed⟩
    else none
  required := options.required

/-- The names of the tags of a field at a place. -/
def tagNames (place : Nat) (options : FieldOptions) : List String :=
  tagName place :: if options.repeated then [packedTagName place] else []

/-- How a field with a name gets its value. -/
def start (name : Identifier) (options : FieldOptions) : FieldStart :=
  if options.unknown then .records (variableName name)
  else if options.sizeCache then .freshSize
  else if options.nonNull || options.required then .required (variableName name) name.name
  else .variable (variableName name)

theorem nodup_tagNames (place : Nat) (options : FieldOptions) :
    (options.tagNames place).Nodup := by
  rw [tagNames]
  split
  next =>
    refine List.nodup_cons.mpr ⟨?_, List.nodup_singleton _⟩
    exact fun hname => Code.tagName_ne_packedTagName place place (List.mem_singleton.mp hname)
  next => exact List.nodup_singleton _

theorem place_of_mem_tagNames {place other : Nat} {options others : FieldOptions} {name : String}
    (hname : name ∈ options.tagNames place) (hother : name ∈ others.tagNames other) :
    place = other := by
  have hcases : ∀ {place : Nat} {options : FieldOptions}, name ∈ options.tagNames place →
      name = tagName place ∨ name = packedTagName place := by
    intro place options hname
    refine (List.mem_cons.mp hname).imp_right fun hpacked => ?_
    split at hpacked
    · exact List.mem_singleton.mp hpacked
    · cases hpacked
  rcases hcases hname with rfl | rfl <;> rcases hcases hother with hsame | hsame
  · exact Code.tagName_injective hsame
  · exact (Code.tagName_ne_packedTagName _ _ hsame).elim
  · exact (Code.tagName_ne_packedTagName _ _ hsame.symm).elim
  · exact Code.packedTagName_injective hsame

end FieldOptions

/-- What code is to use of a field. -/
def ReadField.usage (dialect : Dialect) (field : ReadField) : Usage :=
  field.options.usage dialect field.type

/-- The fields that carry a number, each with its place among all fields. -/
def taggedFields (fields : List ReadField) : List (ReadField × Nat) :=
  fields.zipIdx.filter (·.1.options.isNumbered)

/-! ## What accepted fields tell of their code -/

/-- What code uses of a field in a role. -/
def FieldRole.usage (dialect : Dialect) : FieldRole → Usage
  | .singular number _ nonNull => { form := .singular, number := some number, nonNull }
  | .repeated number packed element =>
      { form := .repeated, number := some number, packing := some ⟨dialect, element, packed⟩ }
  | .map number => { form := .map, number := some number }
  | .oneof _ required => { form := .oneof, required }
  | .unknown => { form := .unknown }
  | .sizeCache => { form := .sizeCache }

namespace ReadField

variable {field : ReadField} {accepted : AcceptedField}

/-- A field is accepted as one that code can be written for. -/
structure Becomes (field : ReadField) (accepted : AcceptedField) : Prop where
  makes : field.Makes ⟨accepted.name, accepted.type, accepted.role.kind⟩
  element : ∀ element ∈ accepted.role.element?, accepted.type.inner? "Vec" = some element

namespace Becomes

theorem name_eq (hbecomes : field.Becomes accepted) : accepted.name = field.name :=
  hbecomes.makes.1

theorem usage_eq (hbecomes : field.Becomes accepted) (dialect : Dialect) :
    field.usage dialect = accepted.role.usage dialect := by
  have hsee : ∀ options : FieldOptions,
      FieldOptions.usage dialect field.type { options with number := options.carried } =
        options.usage dialect field.type := fun options => by
    rw [FieldOptions.usage, FieldOptions.carried_carried]
    rfl
  rw [usage, hbecomes.makes.see_eq _ hsee]
  obtain ⟨⟨-, htype, -⟩, helement⟩ := hbecomes
  rw [← htype]
  obtain ⟨name, type, role⟩ := accepted
  cases role with
  | repeated number packed element =>
      have hinner : type.inner? "Vec" = some element := helement element rfl
      simp only [FieldRole.kind, FieldKind.options, FieldOptions.usage, hinner]
      rfl
  | singular | map | oneof | unknown | sizeCache => rfl

theorem entry (hbecomes : field.Becomes accepted) (dialect : Dialect) :
    (entryCode? dialect accepted).map (fun entry => (entry.name, entry.usage)) =
      if field.options.isCovered then some (field.name.name, field.usage dialect) else none := by
  rw [hbecomes.usage_eq, ← hbecomes.name_eq,
    hbecomes.makes.see_eq FieldOptions.isCovered fun _ => rfl]
  obtain ⟨name, type, role⟩ := accepted
  cases role <;> rfl

theorem encode (hbecomes : field.Becomes accepted) (dialect : Dialect) :
    (encodeCode? dialect accepted).map (fun output => (output.field, output.usage)) =
      if field.options.isCovered then some (field.name, field.usage dialect) else none := by
  rw [hbecomes.usage_eq, ← hbecomes.name_eq,
    hbecomes.makes.see_eq FieldOptions.isCovered fun _ => rfl]
  obtain ⟨name, type, role⟩ := accepted
  cases role <;> rfl

theorem size (hbecomes : field.Becomes accepted) (dialect : Dialect) :
    (sizeCode? dialect accepted).map (fun output => (output.field, output.usage)) =
      if !field.options.sizeCache then some (field.name, field.usage dialect) else none := by
  rw [hbecomes.usage_eq, ← hbecomes.name_eq,
    hbecomes.makes.see_eq FieldOptions.sizeCache fun _ => rfl]
  obtain ⟨name, type, role⟩ := accepted
  cases role <;> rfl

theorem unknown (hbecomes : field.Becomes accepted) :
    (match accepted.role with
      | .unknown => some accepted.name
      | _ => none) =
      if field.options.unknown then some field.name else none := by
  rw [← hbecomes.name_eq, hbecomes.makes.see_eq FieldOptions.unknown fun _ => rfl]
  obtain ⟨name, type, role⟩ := accepted
  cases role <;> rfl

theorem usage_of_unknown (hbecomes : field.Becomes accepted) (hunknown : field.options.unknown = true)
    (dialect : Dialect) : field.usage dialect = { form := .unknown } := by
  rw [hbecomes.makes.see_eq FieldOptions.unknown fun _ => rfl] at hunknown
  rw [hbecomes.usage_eq]
  obtain ⟨name, type, role⟩ := accepted
  cases role with
  | unknown => rfl
  | singular | repeated | map | oneof | sizeCache => cases hunknown

theorem sizeCache (hbecomes : field.Becomes accepted) :
    (match accepted.role with
      | .sizeCache => some accepted.name
      | _ => none) =
      if field.options.sizeCache then some field.name else none := by
  rw [← hbecomes.name_eq, hbecomes.makes.see_eq FieldOptions.sizeCache fun _ => rfl]
  obtain ⟨name, type, role⟩ := accepted
  cases role <;> rfl

theorem constants (hbecomes : field.Becomes accepted) (place : Nat) :
    (tagConstants place accepted).map (fun constant => (constant.name, some constant.number)) =
      if field.options.isNumbered then
        (field.options.tagNames place).map fun name => (name, field.options.carried)
      else [] := by
  rw [← hbecomes.makes.number_eq, hbecomes.makes.see_eq FieldOptions.isNumbered fun _ => rfl,
    hbecomes.makes.see_eq (FieldOptions.tagNames place) fun _ => rfl]
  obtain ⟨name, type, role⟩ := accepted
  cases role <;> rfl

theorem arm (hbecomes : field.Becomes accepted) (place : Nat) :
    (armCode? place accepted).map (fun arm => (arm.tags, arm.target)) =
      if field.options.isNumbered then
        some (field.options.tagNames place, variableName field.name)
      else none := by
  rw [← hbecomes.name_eq, hbecomes.makes.see_eq FieldOptions.isNumbered fun _ => rfl,
    hbecomes.makes.see_eq (FieldOptions.tagNames place) fun _ => rfl]
  obtain ⟨name, type, role⟩ := accepted
  cases role with
  | singular number optional nonNull => cases nonNull <;> rfl
  | repeated | map | oneof | unknown | sizeCache => rfl

theorem attempt (hbecomes : field.Becomes accepted) :
    (attemptCode? accepted).map (·.variableName) =
      if field.options.oneof then some (variableName field.name) else none := by
  rw [← hbecomes.name_eq, hbecomes.makes.see_eq FieldOptions.oneof fun _ => rfl]
  obtain ⟨name, type, role⟩ := accepted
  cases role <;> rfl

theorem binding (hbecomes : field.Becomes accepted) :
    (variableCode? accepted).map (·.name) =
      if !field.options.sizeCache then some (variableName field.name) else none := by
  rw [← hbecomes.name_eq, hbecomes.makes.see_eq FieldOptions.sizeCache fun _ => rfl]
  obtain ⟨name, type, role⟩ := accepted
  cases role with
  | singular number optional nonNull => cases nonNull <;> rfl
  | repeated | map | oneof | unknown | sizeCache => rfl

theorem started (hbecomes : field.Becomes accepted) :
    fieldCode accepted = ⟨field.name, field.options.start field.name⟩ := by
  rw [← hbecomes.name_eq, hbecomes.makes.see_eq (FieldOptions.start accepted.name) fun _ => rfl]
  obtain ⟨name, type, role⟩ := accepted
  cases role with
  | singular number optional nonNull => cases nonNull <;> rfl
  | oneof type required => cases required <;> rfl
  | repeated | map | unknown | sizeCache => rfl

end Becomes

end ReadField

theorem NamedField.exists_read {named : NamedField} {made : MessageField}
    (hmade : named.toMessageField = .ok made) : ∃ field : ReadField, field.toNamedField = named := by
  rw [toMessageField] at hmade
  split at hmade
  · cases hmade
  next options hoptions => exact ⟨{ toNamedField := named, options, isRead := hoptions }, rfl⟩

theorem ReadField.becomes_of_accept {field : ReadField} {made : MessageField}
    {accepted : AcceptedField} (hmakes : field.Makes made) (haccept : made.accept = .ok accepted) :
    field.Becomes accepted := by
  obtain ⟨rfl, helement⟩ := MessageField.eq_of_accept haccept
  exact ⟨hmakes, helement⟩

/-- The fields of an accepted message are those of its declaration, one by one, and their dialect is
the one that is declared. -/
theorem exists_becomes {declaration : Declaration} {message : AcceptedMessage}
    (haccepted : acceptMessage declaration = .ok message) :
    ∃ options fields, declaration.ReadsAs options fields ∧
      options.declaredDialect = .ok message.dialect ∧
      List.Forall₂ ReadField.Becomes fields message.fields := by
  obtain ⟨options, declared, made, hoptions, hdialect, hdeclared, hmade, hfields⟩ :=
    steps_of_acceptMessage haccepted
  have hread : declared ∈ Set.range (List.map ReadField.toNamedField) := by
    rw [Set.range_list_map]
    intro named hnamed
    obtain ⟨_, hnamed⟩ := exists_of_forall₂ (forall₂_of_mapM_ok hmade) named hnamed
    exact NamedField.exists_read hnamed
  obtain ⟨fields, rfl⟩ := hread
  rw [List.mapM_map] at hmade
  have hmakes := (forall₂_of_mapM_ok hmade).imp fun _ _ => ReadField.makes_of_toMessageField
  refine ⟨options, fields, ⟨hoptions, namedFields_of_messageFields hdeclared⟩, hdialect, ?_⟩
  refine (forall₂_comp hmakes (forall₂_of_mapM_ok hfields)).imp ?_
  rintro field accepted ⟨made, hmakes, haccept⟩
  exact ReadField.becomes_of_accept hmakes haccept

end Declaration

/-! ## The code of a message -/

namespace Code

open Declaration (AcceptedMessage ReadField acceptMessage exists_becomes followed_messageRules
  taggedFields)

/-- Code treats every field once, and all its parts treat it alike. -/
structure MessageCode.Treats (code : MessageCode) (fields : List ReadField) : Prop where
  entries : code.entries.map (fun entry => (entry.name, entry.usage)) =
    (fields.filter (·.options.isCovered)).map fun field =>
      (field.name.name, field.usage code.dialect)
  /-- The statement of undeclared records comes last. -/
  encode : code.encode.map (fun output => (output.field, output.usage)) =
    (fields.filter (·.options.isCovered) ++ fields.filter (·.options.unknown)).map fun field =>
      (field.name, field.usage code.dialect)
  /-- The term of undeclared records keeps its place. -/
  size : code.size.map (fun output => (output.field, output.usage)) =
    (fields.filter (!·.options.sizeCache)).map fun field => (field.name, field.usage code.dialect)
  constants : code.decode.constants.map (fun constant => (constant.name, some constant.number)) =
    (taggedFields fields).flatMap fun (field, place) =>
      (field.options.tagNames place).map fun name => (name, field.options.carried)
  /-- A tag is named by one constant only. -/
  distinct : (code.decode.constants.map (·.name)).Nodup
  arms : code.decode.arms.map (fun arm => (arm.tags, arm.target)) =
    (taggedFields fields).map fun (field, place) =>
      (field.options.tagNames place, variableName field.name)
  attempts : code.decode.attempts.map (·.variableName) =
    (fields.filter (·.options.oneof)).map fun field => variableName field.name
  /-- Every field has its variable, save one that remembers the size. -/
  bindings : code.decode.bindings.map (·.name) =
    (fields.filter (!·.options.sizeCache)).map fun field => variableName field.name
  starts : code.decode.fields =
    fields.map fun field => ⟨field.name, field.options.start field.name⟩
  records : code.decode.records.toList =
    (fields.filter (·.options.unknown)).map fun field => variableName field.name
  unknownField : code.unknownField.toList = (fields.filter (·.options.unknown)).map (·.name)
  sizeField : code.sizeField.toList = (fields.filter (·.options.sizeCache)).map (·.name)

section

variable {message : AcceptedMessage} {fields : List ReadField}

/-- Of at most one field that is kept, the last one is all. -/
theorem toList_last_filter {keeps : ReadField → Bool} (hcount : fields.countP keeps ≤ 1) :
    ((fields.filter keeps).map (·.name)).getLast?.toList = (fields.filter keeps).map (·.name) := by
  apply toList_getLast?
  rwa [List.length_map, ← List.countP_eq_length_filter]

theorem toList_unknownField (hbecomes : List.Forall₂ ReadField.Becomes fields message.fields)
    (hcount : fields.countP (·.options.unknown) ≤ 1) :
    (unknownField? message.fields).toList = (fields.filter (·.options.unknown)).map (·.name) := by
  have hnames := filterMap_of_forall₂ hbecomes fun _ _ hfield => hfield.unknown
  exact (congrArg (·.getLast?.toList) hnames).trans (toList_last_filter hcount)

theorem toList_sizeField (hbecomes : List.Forall₂ ReadField.Becomes fields message.fields)
    (hcount : fields.countP (·.options.sizeCache) ≤ 1) :
    (sizeField? message.fields).toList = (fields.filter (·.options.sizeCache)).map (·.name) := by
  have hnames := filterMap_of_forall₂ hbecomes fun _ _ hfield => hfield.sizeCache
  exact (congrArg (·.getLast?.toList) hnames).trans (toList_last_filter hcount)

theorem map_constants (hbecomes : List.Forall₂ ReadField.Becomes fields message.fields) :
    (decodeCode message.fields).constants.map (fun constant => (constant.name, some constant.number)) =
      (taggedFields fields).flatMap fun (field, place) =>
        (field.options.tagNames place).map fun name => (name, field.options.carried) := by
  simp only [decodeCode, List.mapIdx_eq_zipIdx_map, ← List.flatMap_def, List.map_flatMap]
  refine flatMap_of_forall₂ (forall₂_zipIdx hbecomes 0) ?_
  rintro ⟨field, place⟩ ⟨accepted, _⟩ ⟨hfield, rfl⟩
  exact hfield.constants place

theorem map_arms (hbecomes : List.Forall₂ ReadField.Becomes fields message.fields) :
    (decodeCode message.fields).arms.map (fun arm => (arm.tags, arm.target)) =
      (taggedFields fields).map fun (field, place) =>
        (field.options.tagNames place, variableName field.name) := by
  simp only [decodeCode, List.mapIdx_eq_zipIdx_map, List.filterMap_map, List.map_filterMap]
  refine filterMap_of_forall₂ (forall₂_zipIdx hbecomes 0) ?_
  rintro ⟨field, place⟩ ⟨accepted, _⟩ ⟨hfield, rfl⟩
  exact hfield.arm place

/-- Fields at different places have no tag name in common. -/
theorem nodup_tagNames (fields : List ReadField) :
    ((taggedFields fields).flatMap fun (field, place) => field.options.tagNames place).Nodup := by
  refine List.nodup_flatMap.mpr ⟨fun (field, place) _ => field.options.nodup_tagNames place, ?_⟩
  have hplaces : fields.zipIdx.Pairwise fun first second => first.2 ≠ second.2 := by
    rw [← List.pairwise_map, List.zipIdx_map_snd]
    exact List.nodup_range'
  refine (hplaces.filter _).imp fun {first second} hplace name hfirst hsecond => ?_
  exact hplace (Declaration.FieldOptions.place_of_mem_tagNames hfirst hsecond)

/-- The statements of the fields that are not special come first, and then that of undeclared
records. -/
theorem map_encode (hbecomes : List.Forall₂ ReadField.Becomes fields message.fields)
    (hcount : fields.countP (·.options.unknown) ≤ 1) :
    (messageCode message).encode.map (fun output => (output.field, output.usage)) =
      (fields.filter (·.options.isCovered) ++ fields.filter (·.options.unknown)).map fun field =>
        (field.name, field.usage message.dialect) := by
  have hunknown : ∀ field ∈ fields.filter (·.options.unknown),
      (field.name, field.usage message.dialect) = (field.name, { form := .unknown }) := by
    intro field hfield
    obtain ⟨hfield, hset⟩ := List.mem_filter.mp hfield
    obtain ⟨accepted, hbecomes⟩ := exists_of_forall₂ hbecomes field hfield
    rw [hbecomes.usage_of_unknown hset]
  rw [messageCode, List.map_append, List.map_append, List.map_filterMap,
    filterMap_of_forall₂ hbecomes fun _ _ hfield => hfield.encode message.dialect,
    List.map_congr_left hunknown, Option.toList_map, toList_unknownField hbecomes hcount,
    List.map_map, List.map_map]
  rfl

theorem treats_of_becomes (hbecomes : List.Forall₂ ReadField.Becomes fields message.fields)
    (hunknown : fields.countP (·.options.unknown) ≤ 1)
    (hsizeCache : fields.countP (·.options.sizeCache) ≤ 1) :
    (messageCode message).Treats fields := by
  have hconstants := map_constants hbecomes
  have hunknownField := toList_unknownField hbecomes hunknown
  refine {
    entries := ?entries
    encode := map_encode hbecomes hunknown
    size := ?size
    constants := hconstants
    distinct := ?distinct
    arms := map_arms hbecomes
    attempts := ?attempts
    bindings := ?bindings
    starts := (map_eq_of_forall₂ hbecomes fun _ _ hfield => hfield.started.symm).symm
    records := ?records
    unknownField := hunknownField
    sizeField := toList_sizeField hbecomes hsizeCache }
  case entries =>
    rw [messageCode, List.map_filterMap]
    exact filterMap_of_forall₂ hbecomes fun _ _ hfield => hfield.entry message.dialect
  case size =>
    rw [messageCode, List.map_filterMap]
    exact filterMap_of_forall₂ hbecomes fun _ _ hfield => hfield.size message.dialect
  case distinct =>
    have hnames := congrArg (List.map Prod.fst) hconstants
    simp only [List.map_map, List.map_flatMap, Function.comp_def, List.map_id'] at hnames
    rw [messageCode, hnames]
    exact nodup_tagNames fields
  case attempts =>
    rw [messageCode, decodeCode, List.map_filterMap]
    exact filterMap_of_forall₂ hbecomes fun _ _ hfield => hfield.attempt
  case bindings =>
    rw [messageCode, decodeCode, List.map_filterMap]
    exact filterMap_of_forall₂ hbecomes fun _ _ hfield => hfield.binding
  case records =>
    rw [messageCode, decodeCode, Option.toList_map, hunknownField, List.map_map]
    rfl

end

/-- The code of an accepted declaration treats every field that is declared once: the descriptor,
the statements and the terms of the size are about the fields that are not special, in order, the
statement of undeclared records is the last one and their term keeps its place; decoding gives every
field its value, with an arm for every field that carries a number and an attempt for every oneof.
The number, the packing, the dialect and whether a field is always written are those declared, the
same in all parts. -/
theorem fields_treated_once {declaration : Declaration} {message : AcceptedMessage}
    (haccepted : acceptMessage declaration = .ok message) :
    ∃ options fields, declaration.ReadsAs options fields ∧
      options.declaredDialect = .ok (messageCode message).dialect ∧
      (messageCode message).Treats fields := by
  obtain ⟨options, fields, hreads, hdialect, hbecomes⟩ := exists_becomes haccepted
  have hformed := followed_messageRules.mp (hreads.enforces_acceptMessage.followed haccepted)
  exact ⟨options, fields, hreads, hdialect,
    treats_of_becomes hbecomes hformed.unknown hformed.sizeCache⟩

/-- A parcel: undeclared records, declared first, a number that is always written, sizes that are
not packed, a remembered size and a content that has to be there. -/
def parcel : Declaration where
  name := .ofString "Parcel"
  isGeneric := false
  attributes := optionsOf [.word "syntax", .symbol '=' false, .literal "\"proto2\""]
  body := .named [
    ⟨.ofString "others", .plain "UnknownFieldSet", optionsOf [.word "unknown"]⟩,
    ⟨.ofString "number", .plain "u64",
      optionsOf [.word "tag", .symbol '=' false, .literal "3", .symbol ',' false, .word "non_null"]⟩,
    ⟨.ofString "sizes", .container "Vec<u32>" "Vec" (.plain "u32"),
      optionsOf [.word "tag", .symbol '=' false, .literal "1", .symbol ',' false, .word "repeated",
        .symbol ',' false, .word "packed", .symbol '=' false, .word "false"]⟩,
    ⟨.ofString "cache", .plain "SizeCache", optionsOf [.word "size_cache"]⟩,
    ⟨.ofString "content", .plain "Content",
      optionsOf [.word "oneof", .symbol ',' false, .word "required"]⟩]

/-- The parcel as it is accepted. -/
def acceptedParcel : AcceptedMessage where
  name := .ofString "Parcel"
  fullName := "Parcel"
  dialect := .proto2
  fields := [
    ⟨.ofString "others", .plain "UnknownFieldSet", .unknown⟩,
    ⟨.ofString "number", .plain "u64", .singular 3 false true⟩,
    ⟨.ofString "sizes", .container "Vec<u32>" "Vec" (.plain "u32"),
      .repeated 1 (some false) (.plain "u32")⟩,
    ⟨.ofString "cache", .plain "SizeCache", .sizeCache⟩,
    ⟨.ofString "content", .plain "Content", .oneof (.plain "Content") true⟩]

/-- The other records of a parcel are written last and counted first. -/
theorem parcel_writes_others_last :
    acceptMessage parcel = .ok acceptedParcel ∧
      (∃ options fields, parcel.ReadsAs options fields ∧
        (messageCode acceptedParcel).Treats fields) ∧
      (messageCode acceptedParcel).encode.map (·.field.name) =
        ["number", "sizes", "content", "others"] ∧
      (messageCode acceptedParcel).size.map (·.field.name) =
        ["others", "number", "sizes", "content"] := by
  have haccepted : acceptMessage parcel = .ok acceptedParcel := by cbv
  obtain ⟨options, fields, hreads, -, htreats⟩ := fields_treated_once haccepted
  exact ⟨haccepted, ⟨options, fields, hreads, htreats⟩, by cbv, by cbv⟩

end Code

end ProtoWire
