import ProtoWire.Proofs.Validated

/-! # The dispatch table

The table is filled field by field, and the last field that claims a tag keeps it. The search for a
tag goes through the fields in order and ends at the first that is read under it. In a valid
descriptor no tag is claimed twice, so both find the same field for every tag.
-/

namespace ProtoWire

theorem StandardField.elementTag_mem (field : StandardField) :
    field.elementTag ∈ field.acceptedTags := by
  rw [acceptedTags]
  split <;> exact List.mem_cons_self

theorem Tag.make_shift {number : UInt32} (hnumber : inRange number = true) (wireType : WireType) :
    make number wireType >>> 3 = number := by
  have hwire := wireType.value_lt
  apply UInt32.toNat_inj.mp
  rw [UInt32.toNat_shiftRight, make_toNat hnumber]
  change (number.toNat * 8 + wireType.value.toNat) >>> 3 = number.toNat
  rw [Nat.shiftRight_eq_div_pow]
  omega

namespace MessageDescriptor

variable {table : List (UInt32 × StandardField)} {tag : UInt32} {field : StandardField}

/-! ## Tables -/

/-- The tags of a table ascend, so that each stands in it once. -/
def Ascending (table : List (UInt32 × StandardField)) : Prop :=
  table.Pairwise fun entry later => entry.1 < later.1

theorem mem_claim {entry : UInt32 × StandardField} (hentry : entry ∈ claim tag field table) :
    entry = (tag, field) ∨ entry ∈ table := by
  fun_induction claim tag field table with
  | case1 => exact .inl (List.mem_singleton.mp hentry)
  | case2 => exact List.mem_cons.mp hentry
  | case3 => exact (List.mem_cons.mp hentry).imp_right (List.mem_cons_of_mem _)
  | case4 held kept rest _ _ ih =>
      rcases List.mem_cons.mp hentry with rfl | hentry
      · exact .inr List.mem_cons_self
      · exact (ih hentry).imp_right (List.mem_cons_of_mem _)

theorem Ascending.claim (hascending : Ascending table) (tag : UInt32) (field : StandardField) :
    Ascending (claim tag field table) := by
  unfold Ascending at hascending ⊢
  fun_induction MessageDescriptor.claim tag field table with
  | case1 => exact List.pairwise_singleton _ _
  | case2 held kept rest hbefore =>
      refine List.pairwise_cons.mpr ⟨fun later hlater => ?_, hascending⟩
      rcases List.mem_cons.mp hlater with rfl | hlater
      · exact hbefore
      · exact UInt32.lt_trans hbefore ((List.pairwise_cons.mp hascending).1 later hlater)
  | case3 kept rest => exact List.pairwise_cons.mpr (List.pairwise_cons.mp hascending)
  | case4 held kept rest hnotBefore hne ih =>
      obtain ⟨hheld, hrest⟩ := List.pairwise_cons.mp hascending
      refine List.pairwise_cons.mpr ⟨fun later hlater => ?_, ih hrest⟩
      rcases mem_claim hlater with rfl | hlater
      · exact UInt32.lt_of_le_of_ne (UInt32.not_lt.mp hnotBefore) (Ne.symm hne)
      · exact hheld later hlater

/-- A field is found under the tag that it claims. Under other tags nothing changes. -/
theorem lookup_claim (tag : UInt32) (field : StandardField) (table : List (UInt32 × StandardField))
    (other : UInt32) :
    (claim tag field table).lookup other =
      if other = tag then some field else table.lookup other := by
  fun_induction claim tag field table with
  | case1 => exact lookup_cons_eq_ite (tag, field) [] other
  | case2 => rw [lookup_cons_eq_ite]
  | case3 =>
      rw [lookup_cons_eq_ite, lookup_cons_eq_ite]
      split <;> rfl
  | case4 held kept rest _ hne ih => exact lookup_cons_of_set hne ih

/-- In a table whose tags ascend a tag has one field. -/
theorem Ascending.mem_iff (hascending : Ascending table) :
    (tag, field) ∈ table ↔ table.lookup tag = some field := by
  induction table with
  | nil => simp
  | cons entry rest ih =>
      obtain ⟨held, kept⟩ := entry
      obtain ⟨hheld, hrest⟩ := List.pairwise_cons.mp hascending
      rw [lookup_cons_eq_ite, List.mem_cons, Prod.mk.injEq, ih hrest]
      by_cases hsame : tag = held
      · subst hsame
        have hgone : rest.lookup tag ≠ some field := fun hfound =>
          absurd (hheld (tag, field) ((ih hrest).mpr hfound)) (UInt32.lt_irrefl tag)
        simp [hgone, eq_comm]
      · simp [hsame]

/-! ## Filling the table -/

/-- The table with a field under each of its tags. -/
def claimAll (table : List (UInt32 × StandardField)) (field : StandardField) :
    List (UInt32 × StandardField) :=
  field.acceptedTags.foldl (fun table tag => claim tag field table) table

theorem dispatchTable_eq (descriptor : MessageDescriptor) :
    descriptor.dispatchTable = descriptor.standardFields.foldl claimAll [] := by
  rw [dispatchTable, List.foldl_flatMap]
  simp only [List.foldl_map]
  rfl

theorem lookup_claimAll (table : List (UInt32 × StandardField)) (field : StandardField)
    (tag : UInt32) :
    (claimAll table field).lookup tag =
      if tag ∈ field.acceptedTags then some field else table.lookup tag := by
  unfold claimAll
  induction field.acceptedTags generalizing table with
  | nil => rfl
  | cons first rest ih =>
      rw [List.foldl_cons, ih, lookup_claim]
      simp only [List.mem_cons]
      by_cases hrest : tag ∈ rest
      · rw [if_pos hrest, if_pos (.inr hrest)]
      · simp only [hrest, if_false, or_false]

theorem Ascending.claimAll (hascending : Ascending table) (field : StandardField) :
    Ascending (claimAll table field) := by
  unfold MessageDescriptor.claimAll
  induction field.acceptedTags generalizing table with
  | nil => exact hascending
  | cons first rest ih => exact ih (hascending.claim first field)

theorem Ascending.foldl_claimAll (hascending : Ascending table) (fields : List StandardField) :
    Ascending (fields.foldl MessageDescriptor.claimAll table) := by
  induction fields generalizing table with
  | nil => exact hascending
  | cons field rest ih => exact ih (hascending.claimAll field)

theorem lookup_foldl_claimAll (fields : List StandardField)
    (table : List (UInt32 × StandardField)) (tag : UInt32) :
    (fields.foldl claimAll table).lookup tag =
      (fields.reverse.find? (·.acceptedTags.contains tag)).or (table.lookup tag) := by
  induction fields generalizing table with
  | nil => rfl
  | cons field rest ih =>
      rw [List.foldl_cons, ih, lookup_claimAll, List.reverse_cons, List.find?_append,
        Option.or_assoc]
      congr 1
      by_cases htag : tag ∈ field.acceptedTags
      · simp [htag]
      · simp [htag]

theorem ascending_dispatchTable (descriptor : MessageDescriptor) :
    Ascending descriptor.dispatchTable := by
  rw [dispatchTable_eq]
  exact Ascending.foldl_claimAll List.Pairwise.nil _

/-- Of the fields that are read under a tag the table holds the last. -/
theorem lookup_dispatchTable (descriptor : MessageDescriptor) (tag : UInt32) :
    descriptor.dispatchTable.lookup tag =
      descriptor.standardFields.reverse.find? (·.acceptedTags.contains tag) := by
  rw [dispatchTable_eq, lookup_foldl_claimAll, List.lookup_nil, Option.or_none]

/-! ## Valid descriptors -/

section Valid

variable {descriptor : MessageDescriptor} (hvalid : descriptor.validate = .ok ())

include hvalid

theorem nodup_of_validate : (descriptor.standardFields.map (·.number)).Nodup :=
  ((validate_eq_ok_iff _).mp hvalid).2

theorem inRange_of_validate :
    ∀ field ∈ descriptor.standardFields, Tag.inRange field.number = true := fun field hfield =>
  ((Tag.allowed_iff _).mp (((validate_eq_ok_iff _).mp hvalid).1 field hfield).allowed).1

theorem findByTag_eq_some_iff_of_validate : descriptor.findByTag? tag = some field ↔
    field ∈ descriptor.standardFields ∧ tag ∈ field.acceptedTags :=
  findByTag_eq_some_iff (inRange_of_validate hvalid) (nodup_of_validate hvalid)

/-- The last field that is read under a tag is the first, for there is only one. -/
theorem lookup_eq_findByTag (tag : UInt32) :
    descriptor.dispatchTable.lookup tag = descriptor.findByTag? tag := by
  have hunique := @eq_of_accepts descriptor tag (inRange_of_validate hvalid)
    (nodup_of_validate hvalid)
  ext field
  rw [lookup_dispatchTable, findByTag?, find_eq_some_iff_of_unique hunique,
    find_eq_some_iff_of_unique, List.mem_reverse]
  simpa only [List.mem_reverse] using hunique

theorem findByNumber_of_mem (hfield : field ∈ descriptor.standardFields) :
    descriptor.findByNumber? field.number = some field := by
  apply (find_eq_some_iff_of_unique fun member hmember other hother hfits hfits' => ?_).mpr
  · exact ⟨hfield, beq_self_eq_true field.number⟩
  · apply List.inj_on_of_nodup_map (nodup_of_validate hvalid) hmember hother
    exact (beq_iff_eq.mp hfits).trans (beq_iff_eq.mp hfits').symm

theorem number_of_findByTag (hfound : descriptor.findByTag? tag = some field) :
    field.number = tag >>> 3 ∧ descriptor.findByNumber? (tag >>> 3) = some field := by
  obtain ⟨hfield, htag⟩ := (findByTag_eq_some_iff_of_validate hvalid).mp hfound
  obtain ⟨wireType, rfl⟩ := StandardField.number_of_accepts htag
  rw [Tag.make_shift (inRange_of_validate hvalid field hfield)]
  exact ⟨rfl, findByNumber_of_mem hvalid hfield⟩

theorem place_eq_of_accepts {place place' : Nat} {field' : StandardField}
    (hfield : descriptor.standardFields[place]? = some field)
    (hfield' : descriptor.standardFields[place']? = some field')
    (htag : tag ∈ field.acceptedTags) (htag' : tag ∈ field'.acceptedTags) : place = place' := by
  have hnumber := number_eq_of_accepts (inRange_of_validate hvalid)
    (List.mem_of_getElem? hfield) (List.mem_of_getElem? hfield') htag htag'
  have hplace : (descriptor.standardFields.map (·.number))[place]? =
      (descriptor.standardFields.map (·.number))[place']? := by
    rw [List.getElem?_map, List.getElem?_map, hfield, hfield', Option.map_some, Option.map_some,
      hnumber]
  apply (List.getElem?_inj ?_ (nodup_of_validate hvalid)).mp hplace
  rw [List.length_map]
  exact (List.getElem?_eq_some_iff.mp hfield).1

/-- In a valid descriptor the table and the search find the same for every tag, one field or none.
The number of the field is in the tag, and the search for that number finds the same field. Every
field is found under some tag, and no tag is claimed at two places. -/
theorem dispatch_agrees :
    Ascending descriptor.dispatchTable ∧
    (∀ tag field, (tag, field) ∈ descriptor.dispatchTable ↔
      descriptor.findByTag? tag = some field) ∧
    (∀ tag, descriptor.dispatchTable.lookup tag = descriptor.findByTag? tag) ∧
    (∀ tag field, descriptor.findByTag? tag = some field →
      field.number = tag >>> 3 ∧ descriptor.findByNumber? (tag >>> 3) = some field) ∧
    (∀ field ∈ descriptor.standardFields, ∃ tag, descriptor.findByTag? tag = some field) ∧
    ∀ tag (place place' : Nat) field field', descriptor.standardFields[place]? = some field →
      descriptor.standardFields[place']? = some field' →
        tag ∈ field.acceptedTags → tag ∈ field'.acceptedTags → place = place' := by
  have hascending := ascending_dispatchTable descriptor
  refine ⟨hascending, fun tag field => ?_, lookup_eq_findByTag hvalid,
    fun tag field => number_of_findByTag hvalid, fun field hfield => ⟨field.elementTag, ?_⟩,
    fun tag place place' field field' hfield hfield' => place_eq_of_accepts hvalid hfield hfield'⟩
  · rw [hascending.mem_iff, lookup_eq_findByTag hvalid]
  · exact (findByTag_eq_some_iff_of_validate hvalid).mpr ⟨hfield, field.elementTag_mem⟩

end Valid

/-- Numbers that are read packed and unpacked, a member of a oneof and a map, under four tags. -/
theorem orders_dispatched :
    let amounts : StandardField :=
      { number := 4, name := "amounts", type := .scalar .uint32, repeated := true, packed := true }
    let note : StandardField := { number := 1, name := "note", type := .scalar .string }
    let items : StandardField :=
      { number := 2, name := "items", type := .message, repeated := true, map := true }
    let orders : MessageDescriptor :=
      { name := "Orders", dialect := .proto3, entries := [
        .standard amounts, .oneof ⟨"remark", [note], false⟩, .standard items] }
    orders.validate = .ok () ∧
      orders.dispatchTable = [(10, note), (18, items), (32, amounts), (34, amounts)] ∧
      orders.findByTag? 34 = some amounts ∧ amounts.number = (34 : UInt32) >>> 3 ∧
      ∀ field, orders.findByTag? 35 ≠ some field := by
  intro amounts note items orders
  have hvalid : orders.validate = .ok () := by decide
  have htable : orders.dispatchTable = [(10, note), (18, items), (32, amounts), (34, amounts)] := by
    decide
  obtain ⟨-, hmem, -, hnumber, -, -⟩ := dispatch_agrees hvalid
  have hfound : orders.findByTag? 34 = some amounts := by
    rw [← hmem, htable]
    decide
  refine ⟨hvalid, htable, hfound, (hnumber 34 amounts hfound).1, fun field hfield => ?_⟩
  rw [← hmem, htable] at hfield
  simp at hfield

end MessageDescriptor

end ProtoWire
