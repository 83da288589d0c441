import ProtoWire.Proofs.Dispatched

/-! # Tags that fields are written with

A field is written under one tag and read under one or two. Maps and packed fields are written under
the tag of a length, and a repeated field that can be packed is read under that tag in any case. But
a valid descriptor may flag a field as packed that is not repeated. It is read under the tag of a
single value only, so no field is found under the tag it is written with.
-/

namespace ProtoWire

/-- What can be packed is not framed by a length by itself. -/
theorem FieldType.wireType_ne_len {type : FieldType} (htype : type.isPackable = true) :
    type.wireType ≠ .len := by
  cases type with
  | scalar type => cases type <;> first | decide | cases htype
  | enumeration => decide
  | message => cases htype

namespace StandardField

/-- A field that is flagged as packed but neither as repeated nor as a map. -/
def PackedAlone (field : StandardField) : Prop :=
  field.packed = true ∧ field.repeated = false ∧ field.map = false

variable {field : StandardField}

theorem tag_eq_elementTag (hpacked : field.packed = true → field.map = true) :
    field.tag = field.elementTag := by
  rw [tag, elementTag]
  by_cases hmap : field.map = true
  · rw [if_pos hmap, hmap, Bool.or_true, if_pos rfl]
  · rw [Bool.eq_false_iff.mpr (mt hpacked hmap), Bool.false_or]

theorem tag_of_packed (hpacked : field.packed = true) :
    field.tag = Tag.make field.number .len := by
  rw [tag, hpacked, Bool.true_or, if_pos rfl]

/-- A sound field is read under the tag that it is written with, unless it is packed alone. -/
theorem Sound.tag_mem_iff (hsound : field.Sound) :
    field.tag ∈ field.acceptedTags ↔ ¬ field.PackedAlone := by
  have hrange := ((Tag.allowed_iff _).mp hsound.allowed).1
  constructor
  · rintro htag ⟨hpacked, hrepeated, hmap⟩
    simp only [tag_of_packed hpacked, acceptedTags, elementTag, hrepeated, hmap, Bool.false_and,
      Bool.false_eq_true, if_false, List.mem_singleton] at htag
    exact FieldType.wireType_ne_len (hsound.packable hpacked)
      (Tag.make_injective hrange hrange htag).2.symm
  · intro halone
    by_cases hsingle : field.packed = true → field.map = true
    · rw [tag_eq_elementTag hsingle]
      exact field.elementTag_mem
    · obtain ⟨hpacked, hmap⟩ := Classical.not_imp.mp hsingle
      have hrepeated : field.repeated = true := by
        by_contra hrepeated
        exact halone ⟨hpacked, Bool.eq_false_iff.mpr hrepeated, Bool.eq_false_iff.mpr hmap⟩
      -- A field that is repeated and can be packed is read under both tags.
      rw [tag_of_packed hpacked, acceptedTags, hrepeated, hsound.packable hpacked]
      exact List.mem_cons_of_mem _ List.mem_cons_self

end StandardField

namespace MessageDescriptor

variable {descriptor : MessageDescriptor} {field : StandardField}

/-- A tag with the number of a field finds no other field. -/
theorem findByTag_eq_none (hvalid : descriptor.validate = .ok ())
    (hfield : field ∈ descriptor.standardFields) {wireType : WireType}
    (htag : Tag.make field.number wireType ∉ field.acceptedTags) :
    descriptor.findByTag? (Tag.make field.number wireType) = none := by
  cases hfound : descriptor.findByTag? (Tag.make field.number wireType) with
  | none => rfl
  | some other =>
      obtain ⟨-, hnumber⟩ := number_of_findByTag hvalid hfound
      rw [Tag.make_shift (inRange_of_validate hvalid field hfield),
        findByNumber_of_mem hvalid hfield] at hnumber
      cases hnumber
      exact absurd ((findByTag_eq_some_iff_of_validate hvalid).mp hfound).2 htag

/-- In a valid descriptor a field is read under the tag that it is written with, and found under it,
exactly if it is not packed alone. Under the tag of one that is, nothing is found. -/
theorem found_unless_packed_alone (hvalid : descriptor.validate = .ok ()) :
    ∀ field ∈ descriptor.standardFields,
      (field.tag ∈ field.acceptedTags ↔ ¬ field.PackedAlone) ∧
      (descriptor.findByTag? field.tag = some field ↔ ¬ field.PackedAlone) ∧
      (field.PackedAlone → descriptor.findByTag? field.tag = none) := by
  intro field hfield
  have hmem := (((validate_eq_ok_iff _).mp hvalid).1 field hfield).tag_mem_iff
  refine ⟨hmem, ?_, fun halone => ?_⟩
  · rw [findByTag_eq_some_iff_of_validate hvalid, hmem, and_iff_right hfield]
  · have htag : field.tag ∉ field.acceptedTags := fun h => hmem.mp h halone
    rw [StandardField.tag_of_packed halone.1] at htag ⊢
    exact findByTag_eq_none hvalid hfield htag

/-- Counts that are packed and repeated are found under the tag of a length. A total that is packed
alone is not, and neither is anything else. -/
theorem counts_found_total_not :
    let counts : StandardField :=
      { number := 1, name := "counts", type := .scalar .int32, repeated := true, packed := true }
    let total : StandardField :=
      { number := 2, name := "total", type := .scalar .fixed64, packed := true }
    let tally : MessageDescriptor :=
      { name := "Tally", dialect := .proto3, entries := [.standard counts, .standard total] }
    tally.validate = .ok () ∧
      counts.tag = 10 ∧ 10 ∈ counts.acceptedTags ∧ tally.findByTag? 10 = some counts ∧
      total.tag = 18 ∧ 18 ∉ total.acceptedTags ∧ tally.findByTag? 18 = none := by
  intro counts total tally
  have hvalid : tally.validate = .ok () := by decide
  have hcounts : ¬ counts.PackedAlone := fun halone => by cases halone.2.1
  have htotal : total.PackedAlone := ⟨rfl, rfl, rfl⟩
  obtain ⟨hread, hfound, -⟩ := found_unless_packed_alone hvalid counts (by decide)
  obtain ⟨hunread, -, hlost⟩ := found_unless_packed_alone hvalid total (by decide)
  exact ⟨hvalid, rfl, hread.mpr hcounts, hfound.mpr hcounts, rfl,
    fun h => hunread.mp h htotal, hlost htotal⟩

/-- A valid descriptor with a field that is written under tag 10 and read under tag 8 only. -/
theorem packed_alone_not_read_back :
    let count : StandardField :=
      { number := 1, name := "count", type := .scalar .int32, packed := true }
    let tally : MessageDescriptor :=
      { name := "Tally", dialect := .proto3, entries := [.standard count] }
    tally.validate = .ok () ∧ count ∈ tally.standardFields ∧ count.tag = 10 ∧
      count.acceptedTags = [8] ∧ tally.findByTag? count.tag = none := by
  decide

end MessageDescriptor

end ProtoWire
