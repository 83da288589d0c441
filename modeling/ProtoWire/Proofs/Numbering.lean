import ProtoWire.Proofs.Framing
import ProtoWire.Proofs.Lists
import ProtoWire.Schema

/-! # Numbers of a message type

The fields of a message type carry numbers in range, each its own. So no record is taken by two
entries, and the entry that takes a record is found whatever the order of the search. The search for
a number that is carried twice goes from entry to entry and finds what a search through all fields
in a row finds.
-/

namespace ProtoWire

theorem StandardField.number_of_accepts {field : StandardField} {tag : UInt32}
    (haccepts : tag ∈ field.acceptedTags) : ∃ wireType, tag = Tag.make field.number wireType := by
  rw [acceptedTags, elementTag] at haccepts
  split at haccepts <;> split at haccepts <;>
    simp only [List.mem_cons, List.not_mem_nil, or_false, or_self] at haccepts
  · exact ⟨_, haccepts⟩
  · rcases haccepts with htag | htag <;> exact ⟨_, htag⟩
  all_goals exact ⟨_, haccepts⟩

namespace MessageDescriptor

/-! ## Repeated numbers -/

/-- The first number of the list that occurs again after its place. -/
def firstRepeated? : List UInt32 → Option UInt32
  | [] => none
  | number :: rest => if number ∈ rest then some number else firstRepeated? rest

theorem firstRepeated_eq_none_iff (numbers : List UInt32) :
    firstRepeated? numbers = none ↔ numbers.Nodup := by
  induction numbers with
  | nil => simp [firstRepeated?]
  | cons number rest ih =>
      rw [firstRepeated?, List.nodup_cons]
      by_cases hagain : number ∈ rest
      · simp [hagain]
      · rw [if_neg hagain, ih, and_iff_right hagain]

theorem hasNumber_iff (fields : List StandardField) (number : UInt32) :
    hasNumber fields number = true ↔ number ∈ fields.map (·.number) := by
  simp [hasNumber]

theorem hasNumber_later_iff (later : List EntryDescriptor) (number : UInt32) :
    later.any (hasNumber ·.members number) = true ↔
      number ∈ (later.flatMap (·.members)).map (·.number) := by
  simp only [List.any_eq_true, hasNumber_iff, List.map_flatMap, List.mem_flatMap]

theorem firstRepeated_members (later : List EntryDescriptor) (members : List StandardField) :
    firstRepeated? ((members ++ later.flatMap (·.members)).map (·.number)) =
      (repeatedMember? later members).or
        (firstRepeated? ((later.flatMap (·.members)).map (·.number))) := by
  induction members with
  | nil => rfl
  | cons member rest ih =>
      have hsplit : member.number ∈ (rest ++ later.flatMap (·.members)).map (·.number) ↔
          hasNumber rest member.number = true ∨
            later.any (hasNumber ·.members member.number) = true := by
        rw [hasNumber_iff, hasNumber_later_iff, List.map_append, List.mem_append]
      rw [List.cons_append, List.map_cons, firstRepeated?, ih, repeatedMember?]
      by_cases hrest : hasNumber rest member.number = true
      · rw [if_pos (hsplit.mpr (.inl hrest)), if_pos hrest, Option.some_or]
      · by_cases hlater : later.any (hasNumber ·.members member.number) = true
        · rw [if_pos (hsplit.mpr (.inr hlater)), if_neg hrest, if_pos hlater, Option.some_or]
        · have hfresh := mt hsplit.mp (not_or.mpr ⟨hrest, hlater⟩)
          rw [if_neg hfresh, if_neg hrest, if_neg hlater]

/-- The search entry by entry, member by member, is one over all fields in a row. -/
theorem duplicateNumber_eq (descriptor : MessageDescriptor) :
    descriptor.duplicateNumber? = firstRepeated? (descriptor.standardFields.map (·.number)) := by
  unfold duplicateNumber? standardFields
  induction descriptor.entries with
  | nil => rfl
  | cons entry later ih =>
      rw [List.flatMap_cons, firstRepeated_members, ← ih, repeatedNumber?]
      cases repeatedMember? later entry.members with
      | some number => rfl
      | none => rfl

theorem duplicateNumber_eq_none_iff (descriptor : MessageDescriptor) :
    descriptor.duplicateNumber? = none ↔ (descriptor.standardFields.map (·.number)).Nodup := by
  rw [duplicateNumber_eq, firstRepeated_eq_none_iff]

/-! ## Fields by their tags -/

variable {descriptor : MessageDescriptor} {tag : UInt32}

/-- Fields that are read under one tag have the same number. -/
theorem number_eq_of_accepts
    (hrange : ∀ field ∈ descriptor.standardFields, Tag.inRange field.number = true)
    {field other : StandardField} (hfield : field ∈ descriptor.standardFields)
    (hother : other ∈ descriptor.standardFields) (htag : tag ∈ field.acceptedTags)
    (htag' : tag ∈ other.acceptedTags) : field.number = other.number := by
  obtain ⟨wireType, rfl⟩ := StandardField.number_of_accepts htag
  obtain ⟨wireType', hsame⟩ := StandardField.number_of_accepts htag'
  exact (Tag.make_injective (hrange field hfield) (hrange other hother) hsame).1

theorem eq_of_accepts
    (hrange : ∀ field ∈ descriptor.standardFields, Tag.inRange field.number = true)
    (hnodup : (descriptor.standardFields.map (·.number)).Nodup) :
    ∀ field ∈ descriptor.standardFields, ∀ other ∈ descriptor.standardFields,
      field.acceptedTags.contains tag = true → other.acceptedTags.contains tag = true →
        field = other := by
  intro field hfield other hother htag htag'
  apply List.inj_on_of_nodup_map hnodup hfield hother
  exact number_eq_of_accepts hrange hfield hother (List.contains_iff_mem.mp htag)
    (List.contains_iff_mem.mp htag')

/-- A tag finds the field that is read under it, as no other field is. -/
theorem findByTag_eq_some_iff
    (hrange : ∀ field ∈ descriptor.standardFields, Tag.inRange field.number = true)
    (hnodup : (descriptor.standardFields.map (·.number)).Nodup) {field : StandardField} :
    descriptor.findByTag? tag = some field ↔
      field ∈ descriptor.standardFields ∧ tag ∈ field.acceptedTags := by
  rw [findByTag?, find_eq_some_iff_of_unique (eq_of_accepts hrange hnodup), List.contains_iff_mem]

end MessageDescriptor

namespace Entry

/-- The numbers of the fields that make up an entry. -/
def numbers : Entry → List UInt32
  | .singular _ number .. | .repeated _ number .. | .map _ number .. => [number]
  | .oneof _ schema _ => schema.members.map (·.number)

theorem numbers_eq (dialect : Dialect) (entry : Entry) :
    (entry.descriptor dialect).members.map (·.number) = entry.numbers := by
  cases entry with
  | singular | repeated | map => rfl
  | oneof name schema required =>
      simp only [descriptor, EntryDescriptor.members, OneofSchema.descriptors, List.map_map,
        numbers]
      rfl

/-- An entry takes records of its own numbers only. -/
theorem number_of_accepts {entry : Entry} {tag : UInt32} (haccepts : entry.accepts tag = true) :
    ∃ number ∈ entry.numbers, ∃ wireType, tag = Tag.make number wireType := by
  cases entry with
  | singular name number type optional nonNull =>
      exact ⟨number, List.mem_singleton_self number, type.wireType, beq_iff_eq.mp haccepts⟩
  | repeated name number element packed =>
      simp only [accepts, Bool.or_eq_true, beq_iff_eq] at haccepts
      rcases haccepts with h | h
      · exact ⟨number, List.mem_singleton_self number, element.wireType, h⟩
      · exact ⟨number, List.mem_singleton_self number, .len, h⟩
  | map name number key value order =>
      exact ⟨number, List.mem_singleton_self number, .len, beq_iff_eq.mp haccepts⟩
  | oneof name schema required =>
      simp only [accepts, OneofSchema.memberFor?, List.findIdx?_isSome, List.any_eq_true,
        beq_iff_eq] at haccepts
      obtain ⟨member, hmember, htag⟩ := haccepts
      exact ⟨member.number, List.mem_map_of_mem hmember, member.type.wireType, htag.symm⟩

end Entry

namespace MessageSchema

/-- The numbers of a message type are in range, and no two of its fields share one. -/
def Numbered (schema : MessageSchema) : Prop :=
  (∀ field ∈ schema.descriptor.standardFields, Tag.inRange field.number = true) ∧
    schema.descriptor.duplicateNumber? = none

instance : DecidablePred Numbered := fun _ => inferInstanceAs (Decidable (_ ∧ _))

theorem numbers_eq (schema : MessageSchema) :
    schema.descriptor.standardFields.map (·.number) = schema.entries.flatMap (·.numbers) := by
  simp only [MessageDescriptor.standardFields, descriptor, List.flatMap_map, List.map_flatMap,
    Entry.numbers_eq]

variable {schema : MessageSchema}

theorem Numbered.inRange (hnumbered : schema.Numbered) {entry : Entry}
    (hentry : entry ∈ schema.entries) {number : UInt32} (hnumber : number ∈ entry.numbers) :
    Tag.inRange number = true := by
  have hmem : number ∈ schema.descriptor.standardFields.map (·.number) := by
    rw [numbers_eq]
    exact List.mem_flatMap.mpr ⟨entry, hentry, hnumber⟩
  obtain ⟨field, hfield, rfl⟩ := List.mem_map.mp hmem
  exact hnumbered.1 field hfield

theorem Numbered.nodup (hnumbered : schema.Numbered) :
    (schema.entries.flatMap (·.numbers)).Nodup := by
  rw [← numbers_eq]
  exact (MessageDescriptor.duplicateNumber_eq_none_iff _).mp hnumbered.2

/-- Two places with a number in common are the same place. -/
theorem Numbered.place_eq (hnumbered : schema.Numbered) {place place' : Nat} {entry entry' : Entry}
    (hentry : schema.entries[place]? = some entry)
    (hentry' : schema.entries[place']? = some entry') {number : UInt32}
    (hnumber : number ∈ entry.numbers) (hnumber' : number ∈ entry'.numbers) : place = place' := by
  have hpairs := (List.nodup_flatMap.mp hnumbered.nodup).2
  rw [List.pairwise_iff_getElem] at hpairs
  obtain ⟨hlt, rfl⟩ := List.getElem?_eq_some_iff.mp hentry
  obtain ⟨hlt', rfl⟩ := List.getElem?_eq_some_iff.mp hentry'
  rcases Nat.lt_trichotomy place place' with h | h | h
  · exact absurd hnumber' (hpairs place place' hlt hlt' h hnumber)
  · exact h
  · exact absurd hnumber (hpairs place' place hlt' hlt h hnumber')

/-- No record is taken at two places. -/
theorem Numbered.place_eq_of_accepts (hnumbered : schema.Numbered) {place place' : Nat}
    {entry entry' : Entry} (hentry : schema.entries[place]? = some entry)
    (hentry' : schema.entries[place']? = some entry') {tag : UInt32}
    (haccepts : entry.accepts tag = true) (haccepts' : entry'.accepts tag = true) :
    place = place' := by
  obtain ⟨number, hnumber, wireType, rfl⟩ := Entry.number_of_accepts haccepts
  obtain ⟨number', hnumber', wireType', htag⟩ := Entry.number_of_accepts haccepts'
  have hrange := hnumbered.inRange (List.mem_of_getElem? hentry) hnumber
  have hrange' := hnumbered.inRange (List.mem_of_getElem? hentry') hnumber'
  obtain ⟨rfl, _⟩ := Tag.make_injective hrange hrange' htag
  exact hnumbered.place_eq hentry hentry' hnumber hnumber'

theorem entryFor_eq_none_iff (schema : MessageSchema) (tag : UInt32) :
    schema.entryFor? tag = none ↔ ∀ entry ∈ schema.entries, entry.accepts tag = false := by
  unfold entryFor?
  cases hfield : schema.entries.findIdx? (fun entry => entry.isField && entry.accepts tag) with
  | some place =>
      obtain ⟨hlt, hfound, _⟩ := List.findIdx?_eq_some_iff_getElem.mp hfield
      simp only [Bool.and_eq_true, reduceCtorEq, false_iff, not_forall] at hfound ⊢
      exact ⟨_, List.getElem_mem hlt, by simp [hfound.2]⟩
  | none =>
      rw [List.findIdx?_eq_none_iff] at hfield
      simp only [List.findIdx?_eq_none_iff]
      constructor
      · intro honeof entry hentry
        have h := hfield entry hentry
        have h' := honeof entry hentry
        cases hkind : entry.isField <;> simp_all
      · intro hnone entry hentry
        rw [hnone entry hentry, Bool.and_false]

theorem accepts_of_entryFor {tag : UInt32} {place : Nat}
    (hplace : schema.entryFor? tag = some place) :
    ∃ entry, schema.entries[place]? = some entry ∧ entry.accepts tag = true := by
  unfold entryFor? at hplace
  split at hplace
  next found hfield =>
    cases hplace
    obtain ⟨hlt, hfound, _⟩ := List.findIdx?_eq_some_iff_getElem.mp hfield
    exact ⟨_, List.getElem?_eq_getElem hlt, (Bool.and_eq_true _ _ ▸ hfound).2⟩
  next =>
    obtain ⟨hlt, hfound, _⟩ := List.findIdx?_eq_some_iff_getElem.mp hplace
    exact ⟨_, List.getElem?_eq_getElem hlt, (Bool.and_eq_true _ _ ▸ hfound).2⟩

end MessageSchema

/-- The numbers of all message types of a catalog are in range and apart. -/
def Catalog.Numbered (catalog : Catalog) : Prop :=
  ∀ listed ∈ catalog.messages, listed.2.Numbered

instance : DecidablePred Catalog.Numbered := fun _ => inferInstanceAs (Decidable (∀ _ ∈ _, _))

/-- What holds of all listed message types and of a type without fields holds of every name. -/
theorem Catalog.schema_of_forall {catalog : Catalog} {holds : MessageSchema → Prop}
    (hlisted : ∀ listed ∈ catalog.messages, holds listed.2) (name : String)
    (hempty : holds { name, entries := [] }) : holds (catalog.schema name) := by
  unfold schema
  cases hlookup : catalog.messages.lookup name with
  | none => exact hempty
  | some schema =>
      obtain ⟨before, after, hmem, _⟩ := List.lookup_eq_some_iff.mp hlookup
      exact hlisted (name, schema) (by rw [hmem]; simp)

theorem Catalog.Numbered.schema {catalog : Catalog} (hnumbered : catalog.Numbered)
    (name : String) : (catalog.schema name).Numbered :=
  Catalog.schema_of_forall hnumbered name ⟨fun _ hfield => (List.not_mem_nil hfield).elim, rfl⟩

end ProtoWire
