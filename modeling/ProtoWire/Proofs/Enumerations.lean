import ProtoWire.Code.Enumeration
import ProtoWire.Proofs.Decoded
import ProtoWire.Proofs.Variants

/-! # Open enumerations

A declared enumeration has a value for every number: the first variant that is declared with it, or
else the number itself. A value goes over the wire as its number, so that what comes back is the
value of that number, whichever of the values with that number was sent.
-/

namespace ProtoWire

/-! ## Values and numbers -/

namespace EnumSchema

variable {schema : EnumSchema} {number : Int32}

theorem isRecognized_ofNumber_iff : (schema.ofNumber number).isRecognized = true ↔
    ∃ variant ∈ schema.variants, variant.number = number := by
  unfold ofNumber
  cases hplace : schema.variants.findIdx? (·.number == number) with
  | some place =>
      obtain ⟨hlt, hfound, -⟩ := List.findIdx?_eq_some_iff_getElem.mp hplace
      exact iff_of_true rfl ⟨_, List.getElem_mem hlt, beq_iff_eq.mp hfound⟩
  | none =>
      have hnone := List.findIdx?_eq_none_iff.mp hplace
      refine iff_of_false Bool.false_ne_true ?_
      rintro ⟨variant, hvariant, hnumber⟩
      exact beq_eq_false_iff_ne.mp (hnone variant hvariant) hnumber

/-- A number that no variant is declared with stands for itself. -/
theorem ofNumber_eq_unrecognized (hnumber : (schema.ofNumber number).isRecognized = false) :
    schema.ofNumber number = .unrecognized number := by
  unfold ofNumber at hnumber ⊢
  split at hnumber
  · cases hnumber
  · rfl

section First

variable {before after : List EnumVariant} {variant : EnumVariant}
  (hvariants : schema.variants = before ++ variant :: after)
include hvariants

/-- Of several variants with one number the first stands for it. -/
theorem ofNumber_eq_first (hnumber : variant.number = number)
    (hbefore : ∀ other ∈ before, other.number ≠ number) :
    schema.ofNumber number = .variant before.length := by
  have hnone : before.findIdx? (·.number == number) = none :=
    List.findIdx?_eq_none_iff.mpr fun other hother => beq_eq_false_iff_ne.mpr (hbefore other hother)
  rw [ofNumber, hvariants, List.findIdx?_append, hnone, List.findIdx?_cons,
    beq_iff_eq.mpr hnumber, if_pos rfl, Option.none_or, Option.map_some, Nat.zero_add]

theorem getElem_variants : schema.variants[before.length]? = some variant := by
  rw [hvariants, List.getElem?_append_right (Nat.le_refl _), Nat.sub_self]
  rfl

theorem name_variant : schema.name? (.variant before.length) = some variant.name := by
  rw [name?, getElem_variants hvariants]
  rfl

theorem number_variant : schema.number (.variant before.length) = variant.number := by
  rw [EnumSchema.number, getElem_variants hvariants]
  rfl

end First

end EnumSchema

/-! ## Values on the wire -/

open Reader

/-- A value of an enumeration goes over the wire as its number, and what is read is made of the
number alone. -/
structure EnumSchema.Carries (schema : EnumSchema) (catalog : Catalog) (pass : Pass)
    (value : EnumValue) : Prop where
  read_eq : ∀ levels reader rest, Sound levels reader →
    reader.window = (Value.enumeration value).write catalog pass (.enumeration schema) ++ rest →
    catalog.readValue (.enumeration schema) reader =
      .ok (.enumeration (schema.ofNumber (schema.number value)))
        (reader.skip ((Value.enumeration value).write catalog pass (.enumeration schema)).length)
  write_eq : (Value.enumeration (schema.ofNumber (schema.number value))).write catalog pass
    (.enumeration schema) = (Value.enumeration value).write catalog pass (.enumeration schema)
  length_eq : ((Value.enumeration value).write catalog pass (.enumeration schema)).length =
    enumNumberSize (schema.number value)
  isDefault_iff : (Value.enumeration value).isDefault catalog pass (.enumeration schema) = true ↔
    (Value.enumeration value).write catalog pass (.enumeration schema) =
      (Value.enumeration (schema.ofNumber 0)).write catalog pass (.enumeration schema)

theorem encodeEnumNumber_injective : Function.Injective encodeEnumNumber := fun _ _ hencode =>
  Varint.signExtend_injective (Varint.encode_injective hencode)

theorem EnumSchema.carries (schema : EnumSchema) (catalog : Catalog) (pass : Pass)
    (value : EnumValue) : schema.Carries catalog pass value where
  read_eq levels reader rest hsound hwindow := by
    have hword : readVarint32 reader =
        .ok (Varint.signExtend (schema.number value)).toUInt32 _ :=
      bind_ok (readVarint64_encode hsound hwindow) _
    have hread : catalog.readValue (.enumeration schema) reader = _ := bind_ok hword _
    rw [hread, Varint.toInt32_signExtend]
    rfl
  write_eq := by rw [Value.write, Value.write, schema.number_ofNumber]
  length_eq := Varint.length_encode _
  isDefault_iff := by
    rw [Value.isDefault, Value.write, Value.write, schema.number_ofNumber, beq_iff_eq]
    exact encodeEnumNumber_injective.eq_iff.symm

/-! ## Declared variants -/

namespace Declaration

/-- The number that the attributes of a variant give it. -/
def Variant.number? (variant : Variant) : Option Int32 :=
  (VariantOptions.read variant.attributes).toOption.bind (·.value)

/-- The variant of an enumeration that a declared one stands for, if it has a number. -/
def Variant.numbered? (variant : Variant) : Option EnumVariant :=
  variant.number?.map (⟨variant.name.name, ·⟩)

theorem knownVariants_of_toVariant {variant : Variant} {made : AcceptedVariant}
    (hmade : variant.toVariant = .ok made) (rest : List AcceptedVariant) :
    knownVariants (made :: rest) =
      (variant.number?.map (variant.name, ·)).toList ++ knownVariants rest := by
  rw [Variant.toVariant] at hmade
  split at hmade
  next => cases hmade
  next options hread =>
    have hnumber : variant.number? = options.value := by
      rw [Variant.number?, hread]
      rfl
    rw [hnumber]
    obtain ⟨value, hvalue, -, rfl⟩ | ⟨hvalue, -, rfl⟩ := cases_of_classifyVariant hmade
    · rw [hvalue]
      rfl
    · rw [hvalue]
      rfl

theorem knownVariants_eq {listed : List Variant} {made : List AcceptedVariant}
    (hmade : List.Forall₂ (fun variant made => variant.toVariant = .ok made) listed made) :
    knownVariants made = listed.filterMap fun variant => variant.number?.map (variant.name, ·) := by
  induction hmade with
  | nil => rfl
  | cons hfirst _ ih =>
      rw [knownVariants_of_toVariant hfirst, ih, List.filterMap_eq_flatMap_toList,
        List.filterMap_eq_flatMap_toList, List.flatMap_cons]

/-- The values of an accepted enumeration are those of its variants that have a number. -/
theorem known_of_accepted {declaration : Declaration} {enumeration : AcceptedEnumeration}
    (haccepted : acceptEnumeration declaration = .ok enumeration) :
    enumeration.known = declaration.body.listedVariants.filterMap fun variant =>
      variant.number?.map (variant.name, ·) := by
  rw [acceptEnumeration] at haccepted
  split at haccepted
  next listed hbody =>
    rw [hbody]
    obtain ⟨made, hmade, hcounted⟩ := exists_of_bind_ok haccepted
    have hknown : enumeration.known = knownVariants made := by
      split at hcounted <;> cases hcounted
      rfl
    rw [hknown]
    exact knownVariants_eq (forall₂_of_mapM_ok hmade)
  next => cases haccepted

theorem variants_of_accepted {declaration : Declaration} {enumeration : AcceptedEnumeration}
    (haccepted : acceptEnumeration declaration = .ok enumeration) :
    (Code.Enumeration.schema enumeration).variants =
      declaration.body.listedVariants.filterMap (·.numbered?) := by
  rw [Code.Enumeration.schema, known_of_accepted haccepted, List.map_filterMap]
  refine List.filterMap_congr fun variant _ => ?_
  rw [Option.map_map]
  rfl

namespace Variant

variable {variant : Variant} {number : Int32}

theorem numbered_of_number (hnumber : variant.number? = some number) :
    variant.numbered? = some ⟨variant.name.name, number⟩ := by
  rw [numbered?, hnumber]
  rfl

theorem length_numbered (listed : List Variant) :
    (listed.filterMap (·.numbered?)).length = (listed.filterMap (·.number?)).length := by
  rw [List.length_filterMap_eq_countP, List.length_filterMap_eq_countP]
  refine List.countP_congr fun variant _ => ?_
  rw [numbered?, Option.isSome_map]

theorem exists_numbered_iff {listed : List Variant} :
    (∃ held ∈ listed.filterMap (·.numbered?), held.number = number) ↔
      ∃ variant ∈ listed, variant.number? = some number := by
  constructor
  · rintro ⟨held, hheld, rfl⟩
    obtain ⟨variant, hvariant, hnumbered⟩ := List.mem_filterMap.mp hheld
    obtain ⟨number, hnumber, rfl⟩ := Option.map_eq_some_iff.mp hnumbered
    exact ⟨variant, hvariant, hnumber⟩
  · rintro ⟨variant, hvariant, hnumber⟩
    exact ⟨_, List.mem_filterMap.mpr ⟨variant, hvariant, numbered_of_number hnumber⟩, rfl⟩

end Variant

/-- An accepted enumeration keeps every number. Each number has a value, which is recognized exactly
if a variant is declared with the number, and is then the first such variant, or else the number
itself. Any value, be it a later variant of its number or a number that hides a variant, is read
back as the value of its number. That is written in the same bytes, which are as many as are counted
for the number. The default is the value of 0, and those values are defaults that are written as it
is. -/
theorem every_number_kept {declaration : Declaration} {enumeration : AcceptedEnumeration}
    (haccepted : acceptEnumeration declaration = .ok enumeration) :
    let schema := Code.Enumeration.schema enumeration
    let listed := declaration.body.listedVariants
    (∀ number, schema.number (schema.ofNumber number) = number ∧
      ((schema.ofNumber number).isRecognized = true ↔
        ∃ variant ∈ listed, variant.number? = some number) ∧
      ((schema.ofNumber number).isRecognized = false →
        schema.ofNumber number = .unrecognized number)) ∧
    (∀ before variant after number, listed = before ++ variant :: after →
      variant.number? = some number →
        let value := EnumValue.variant (before.filterMap (·.number?)).length
        schema.number value = number ∧ schema.name? value = some variant.name.name ∧
        ((∀ other ∈ before, other.number? ≠ some number) → schema.ofNumber number = value)) ∧
    ∀ catalog pass,
      catalog.default? (.enumeration schema) = some (.enumeration (schema.ofNumber 0)) ∧
      ∀ value, schema.Carries catalog pass value := by
  intro schema listed
  have hvariants : schema.variants = listed.filterMap (·.numbered?) :=
    variants_of_accepted haccepted
  refine ⟨fun number => ⟨schema.number_ofNumber number, ?_, EnumSchema.ofNumber_eq_unrecognized⟩,
    ?_, fun catalog pass => ⟨rfl, fun value => schema.carries catalog pass value⟩⟩
  · rw [EnumSchema.isRecognized_ofNumber_iff, hvariants]
    exact Variant.exists_numbered_iff
  · intro before variant after number hlisted hnumber value
    rw [hlisted, List.filterMap_append, List.filterMap_cons_some
      (Variant.numbered_of_number hnumber)] at hvariants
    have hplace : value = .variant (before.filterMap (·.numbered?)).length := by
      rw [Variant.length_numbered]
    rw [hplace]
    refine ⟨EnumSchema.number_variant hvariants, EnumSchema.name_variant hvariants,
      fun hbefore => ?_⟩
    refine EnumSchema.ofNumber_eq_first hvariants rfl fun held hheld hsame => ?_
    obtain ⟨other, hother, hfound⟩ := Variant.exists_numbered_iff.mp ⟨held, hheld, hsame⟩
    exact hbefore other hother hfound

/-- The floors of a house: two names for one below the ground, all other numbers, and one above. -/
def floors : Declaration where
  name := .ofString "Floor"
  isGeneric := false
  attributes := []
  body := .variants [
    { name := .ofString "Cellar", shape := .unit
      attributes := Code.optionsOf
        [.word "value", .symbol '=' false, .symbol '-' false, .literal "1"] },
    { name := .ofString "Basement", shape := .unit
      attributes := Code.optionsOf
        [.word "value", .symbol '=' false, .symbol '-' false, .literal "1"] },
    { name := .ofString "Other", shape := .positional [.plain "i32"]
      attributes := Code.optionsOf [.word "unrecognized"] },
    { name := .ofString "Attic", shape := .unit
      attributes := Code.optionsOf [.word "value", .symbol '=' false, .literal "5"] }]

/-- Below zero, a second name and the bare number are both read back as the first name. The ground
floor has no name and is the default all the same. -/
theorem floors_kept : ∃ enumeration, acceptEnumeration floors = .ok enumeration ∧
    let schema := Code.Enumeration.schema enumeration
    schema.ofNumber (-1) = .variant 0 ∧ schema.name? (schema.ofNumber (-1)) = some "Cellar" ∧
      schema.ofNumber 0 = .unrecognized 0 ∧
      ∀ value ∈ [EnumValue.variant 1, .unrecognized (-1)],
        let written := (Value.enumeration value).write ⟨[]⟩ none (.enumeration schema)
        written = [0xff, 0xff, 0xff, 0xff, 0xff, 0xff, 0xff, 0xff, 0xff, 0x01] ∧
        Catalog.readValue ⟨[]⟩ (.enumeration schema) (.ofBytes (written ++ [0x2a]) {}) =
          .ok (.enumeration (.variant 0)) ((Reader.ofBytes (written ++ [0x2a]) {}).skip 10) := by
  have haccepted : acceptEnumeration floors = .ok ⟨.ofString "Floor",
      [(.ofString "Cellar", -1), (.ofString "Basement", -1), (.ofString "Attic", 5)],
      .ofString "Other"⟩ := by cbv
  refine ⟨_, haccepted, ?_⟩
  intro schema
  obtain ⟨hnumbers, hvariants, hcarries⟩ := every_number_kept haccepted
  obtain ⟨-, hname, hfirst⟩ := hvariants [] _ _ (-1) rfl (by cbv)
  have hcellar : schema.ofNumber (-1) = .variant 0 := hfirst fun _ hother =>
    (List.not_mem_nil hother).elim
  refine ⟨hcellar, (congrArg schema.name? hcellar).trans hname, (hnumbers 0).2.2 (by decide), ?_⟩
  intro value hvalue written
  have hnumber : schema.number value = -1 := by
    rcases List.mem_cons.mp hvalue with rfl | hvalue
    · rfl
    · rw [List.mem_singleton.mp hvalue]
      rfl
  have hwritten : written = [0xff, 0xff, 0xff, 0xff, 0xff, 0xff, 0xff, 0xff, 0xff, 0x01] := by
    change encodeEnumNumber (schema.number value) = _
    rw [hnumber]
    decide
  have hread := ((hcarries ⟨[]⟩ none).2 value).read_eq 100 _ [0x2a] (Reader.sound_ofBytes _ {})
    (Reader.window_ofBytes _ {})
  rw [hnumber, hcellar] at hread
  have hlength : written.length = 10 := congrArg List.length hwritten
  exact ⟨hwritten, hlength ▸ hread⟩

end Declaration

end ProtoWire
