import ProtoWire.Proofs.Numbering

/-! # Validated descriptors

A descriptor is valid if each of its fields is sound and no number is carried twice. If it is not,
the error is about the first field that breaks a rule after fields that break none. The search for
a number that is carried twice stops elsewhere: at the first field whose number comes again.
-/

namespace ProtoWire

/-- The numbers that fields carry: below 2^29, and not among those that are reserved. -/
def Tag.Allowed (number : UInt32) : Prop :=
  1 ≤ number.toNat ∧ number.toNat ≤ 2 ^ 29 - 1 ∧
    (number.toNat < 19000 ∨ 19999 < number.toNat)

theorem Tag.allowed_iff (number : UInt32) :
    Tag.Allowed number ↔ Tag.inRange number = true ∧ Tag.isReserved number = false := by
  rw [Tag.Allowed, Tag.inRange, Tag.isReserved, Bool.and_eq_true, Bool.and_eq_false_iff,
    decide_eq_true_iff, decide_eq_true_iff, decide_eq_false_iff_not, decide_eq_false_iff_not,
    UInt32.le_iff_toNat_le, UInt32.le_iff_toNat_le, UInt32.le_iff_toNat_le,
    UInt32.le_iff_toNat_le, Tag.minimumNumber, Tag.maximumNumber]
  simp only [UInt32.reduceToNat]
  omega

theorem Tag.inRange_eq_false_iff (number : UInt32) : Tag.inRange number = false ↔
    ¬ (1 ≤ number.toNat ∧ number.toNat ≤ 2 ^ 29 - 1) := by
  rw [← Bool.not_eq_true, Tag.inRange_iff]
  omega

theorem Tag.isReserved_iff (number : UInt32) : Tag.isReserved number = true ↔
    19000 ≤ number.toNat ∧ number.toNat ≤ 19999 := by
  simp only [Tag.isReserved, Bool.and_eq_true, decide_eq_true_iff, UInt32.le_iff_toNat_le,
    UInt32.reduceToNat]

/-- What a field has to be by itself: its number may be carried, and only what can be packed is. -/
structure StandardField.Sound (field : StandardField) : Prop where
  allowed : Tag.Allowed field.number
  packable : field.packed = true → field.type.isPackable = true

/-- What is wrong with a field that comes after others: the first of the four rules that it
breaks. Of two fields with one number, the error names the earlier one first. -/
inductive StandardField.Offends (earlier : List StandardField) (field : StandardField) :
    DescriptorError → Prop
  | range (hnumber : ¬ (1 ≤ field.number.toNat ∧ field.number.toNat ≤ 2 ^ 29 - 1)) :
      Offends earlier field (.invalidFieldNumber field.name field.number)
  | reserved (hnumber : 19000 ≤ field.number.toNat ∧ field.number.toNat ≤ 19999) :
      Offends earlier field (.reservedFieldNumber field.name field.number)
  | packing (hallowed : Tag.Allowed field.number)
      (hpacked : field.packed = true) (htype : field.type.isPackable = false) :
      Offends earlier field (.packedNotPackable field.name field.type.keyword)
  | duplicate (hsound : field.Sound) (front back : List StandardField) (first : StandardField)
      (hearlier : earlier = front ++ first :: back) (hfirst : first.number = field.number)
      (honly : ∀ other ∈ front ++ back, other.number ≠ field.number) :
      Offends earlier field (.duplicateFieldNumber field.number first.name field.name)

/-- Fields that are sound, with numbers that differ. -/
def StandardField.Acceptable (fields : List StandardField) : Prop :=
  (∀ field ∈ fields, field.Sound) ∧ (fields.map (·.number)).Nodup

namespace MessageDescriptor

variable {seen fields : List StandardField} {field : StandardField} {error : DescriptorError}

/-! ## One field -/

theorem fresh_iff : field.number ∉ seen.map (·.number) ↔
    seen.find? (·.number == field.number) = none := by
  simp only [List.mem_map, not_exists, not_and, List.find?_eq_none, beq_iff_eq]

theorem checkField_eq_ok_iff (seen : List StandardField) (field : StandardField) :
    checkField seen field = .ok () ↔ field.Sound ∧ field.number ∉ seen.map (·.number) := by
  have hsound : field.Sound ↔ Tag.inRange field.number = true ∧
      Tag.isReserved field.number = false ∧ (field.packed = true → field.type.isPackable = true) :=
    ⟨fun ⟨hallowed, hpackable⟩ =>
        ⟨((Tag.allowed_iff _).mp hallowed).1, ((Tag.allowed_iff _).mp hallowed).2, hpackable⟩,
      fun ⟨hrange, hreserved, hpackable⟩ =>
        ⟨(Tag.allowed_iff _).mpr ⟨hrange, hreserved⟩, hpackable⟩⟩
  rw [hsound, fresh_iff, checkField]
  cases Tag.inRange field.number with
  | false => simp
  | true =>
      cases Tag.isReserved field.number with
      | true => simp
      | false =>
          cases hpacking : field.packed && !field.type.isPackable with
          | true =>
              rw [Bool.and_eq_true, Bool.not_eq_true'] at hpacking
              simp [hpacking]
          | false =>
              have hpackable : field.packed = true → field.type.isPackable = true := by
                simpa using hpacking
              cases hfound : seen.find? (·.number == field.number) with
              | some first => simp
              | none => simpa using hpackable

/-- The field that is found for a number is the only one, if the numbers differ. -/
theorem find_eq_some_iff {number : UInt32} {first : StandardField}
    (hnodup : (seen.map (·.number)).Nodup) :
    seen.find? (·.number == number) = some first ↔ ∃ front back, seen = front ++ first :: back ∧
      first.number = number ∧ ∀ other ∈ front ++ back, other.number ≠ number := by
  simp only [List.find?_eq_some_iff_append, beq_iff_eq, Bool.not_eq_true', beq_eq_false_iff_ne]
  constructor
  · rintro ⟨rfl, front, back, rfl, hfront⟩
    rw [List.map_append, List.map_cons, List.nodup_middle, List.nodup_cons, ← List.map_append]
      at hnodup
    refine ⟨front, back, rfl, rfl, fun other hother hsame => hnodup.1 ?_⟩
    exact List.mem_map.mpr ⟨other, hother, hsame⟩
  · rintro ⟨front, back, rfl, hnumber, honly⟩
    exact ⟨hnumber, front, back, rfl, fun other hother =>
      honly other (List.mem_append_left back hother)⟩

theorem checkField_eq_error_iff (hseen : (seen.map (·.number)).Nodup) :
    checkField seen field = .error error ↔ field.Offends seen error := by
  constructor
  · intro hcheck
    rw [checkField] at hcheck
    split at hcheck
    next hrange =>
      cases hcheck
      rw [Bool.not_eq_true', Tag.inRange_eq_false_iff] at hrange
      exact .range hrange
    split at hcheck
    next hrange hreserved =>
      cases hcheck
      exact .reserved ((Tag.isReserved_iff _).mp hreserved)
    next hrange hreserved =>
      have hallowed : Tag.Allowed field.number :=
        (Tag.allowed_iff _).mpr ⟨by simpa using hrange, by simpa using hreserved⟩
      split at hcheck
      next hpacking =>
        cases hcheck
        rw [Bool.and_eq_true, Bool.not_eq_true'] at hpacking
        exact .packing hallowed hpacking.1 hpacking.2
      next hpacking =>
        have hsound : field.Sound := ⟨hallowed, by simpa using hpacking⟩
        split at hcheck
        next first hfound =>
          cases hcheck
          obtain ⟨front, back, hsplit, hnumber, honly⟩ := (find_eq_some_iff hseen).mp hfound
          exact .duplicate hsound front back first hsplit hnumber honly
        next => cases hcheck
  · intro hoffends
    rw [checkField]
    cases hoffends with
    | range hnumber =>
        rw [(Tag.inRange_eq_false_iff _).mpr hnumber]
        rfl
    | reserved hnumber =>
        have hrange : Tag.inRange field.number = true := (Tag.inRange_iff _).mpr (by omega)
        rw [hrange, (Tag.isReserved_iff _).mpr hnumber]
        rfl
    | packing hallowed hpacked htype =>
        obtain ⟨hrange, hreserved⟩ := (Tag.allowed_iff _).mp hallowed
        rw [hrange, hreserved, hpacked, htype]
        rfl
    | duplicate hsound front back first hearlier hnumber honly =>
        obtain ⟨hrange, hreserved⟩ := (Tag.allowed_iff _).mp hsound.allowed
        have hpacking : (field.packed && !field.type.isPackable) = false := by
          simpa using hsound.packable
        have hfound := (find_eq_some_iff hseen).mpr ⟨front, back, hearlier, hnumber, honly⟩
        rw [hrange, hreserved, hpacking, hfound]
        rfl

/-! ## All fields -/

theorem checkFields_cons_eq_ok_iff (seen rest : List StandardField) (field : StandardField) :
    checkFields seen (field :: rest) = .ok () ↔
      checkField seen field = .ok () ∧ checkFields (seen ++ [field]) rest = .ok () := by
  rw [checkFields]
  cases checkField seen field with
  | ok => exact (and_iff_right rfl).symm
  | error error => exact ⟨(nomatch ·), fun h => nomatch h.1⟩

theorem checkFields_eq_ok_iff (seen fields : List StandardField) :
    checkFields seen fields = .ok () ↔
      (∀ field ∈ fields, field.Sound) ∧ (fields.map (·.number)).Nodup ∧
        ∀ field ∈ fields, field.number ∉ seen.map (·.number) := by
  induction fields generalizing seen with
  | nil => simp [checkFields]
  | cons field rest ih =>
      rw [checkFields_cons_eq_ok_iff, checkField_eq_ok_iff, ih, List.map_cons, List.nodup_cons]
      simp only [List.map_append, List.mem_append, not_or, List.map_cons, List.map_nil,
        List.mem_singleton, List.forall_mem_cons, List.mem_map, not_exists, not_and]
      grind

/-- The error is that of the first field whose check fails, after the fields before it passed. -/
theorem checkFields_eq_error_iff (seen fields : List StandardField) (error : DescriptorError) :
    checkFields seen fields = .error error ↔ ∃ before field after,
      fields = before ++ field :: after ∧ checkFields seen before = .ok () ∧
        checkField (seen ++ before) field = .error error := by
  induction fields generalizing seen with
  | nil => simp [checkFields]
  | cons field rest ih =>
      rw [checkFields]
      -- If the first field fails, nothing stands before the one that is reported.
      cases hfield : checkField seen field with
      | error found =>
          constructor
          · intro herror
            exact ⟨[], field, rest, rfl, rfl, by rwa [List.append_nil, hfield]⟩
          · rintro ⟨before, other, after, hsplit, hbefore, hother⟩
            cases before with
            | nil =>
                obtain ⟨rfl, -⟩ := List.cons.inj hsplit
                rwa [List.append_nil, hfield] at hother
            | cons first before =>
                obtain ⟨rfl, -⟩ := List.cons.inj hsplit
                rw [checkFields_cons_eq_ok_iff, hfield] at hbefore
                cases hbefore.1
      | ok =>
          change checkFields (seen ++ [field]) rest = .error error ↔ _
          rw [ih]
          constructor
          · rintro ⟨before, other, after, rfl, hbefore, hother⟩
            refine ⟨field :: before, other, after, rfl, ?_, ?_⟩
            · exact (checkFields_cons_eq_ok_iff _ _ _).mpr ⟨hfield, hbefore⟩
            · rwa [List.append_assoc, List.singleton_append] at hother
          · rintro ⟨before, other, after, hsplit, hbefore, hother⟩
            cases before with
            | nil =>
                obtain ⟨rfl, -⟩ := List.cons.inj hsplit
                rw [List.append_nil, hfield] at hother
                cases hother
            | cons first before =>
                obtain ⟨rfl, hrest⟩ := List.cons.inj hsplit
                obtain ⟨-, hbefore⟩ := (checkFields_cons_eq_ok_iff _ _ _).mp hbefore
                refine ⟨before, other, after, hrest, hbefore, ?_⟩
                rwa [List.append_assoc, List.singleton_append]

/-- A descriptor is valid if every field is sound and no number is carried twice. -/
theorem validate_eq_ok_iff (descriptor : MessageDescriptor) :
    descriptor.validate = .ok () ↔
      (∀ field ∈ descriptor.standardFields, field.Sound) ∧
        (descriptor.standardFields.map (·.number)).Nodup := by
  rw [validate, checkFields_eq_ok_iff]
  simp

theorem validate_eq_error_iff (descriptor : MessageDescriptor) (error : DescriptorError) :
    descriptor.validate = .error error ↔ ∃ before field after,
      descriptor.standardFields = before ++ field :: after ∧ StandardField.Acceptable before ∧
        field.Offends before error := by
  have hbefore (before : List StandardField) :
      checkFields [] before = .ok () ↔ StandardField.Acceptable before := by
    rw [checkFields_eq_ok_iff, StandardField.Acceptable]
    simp
  rw [validate, checkFields_eq_error_iff]
  refine exists_congr fun before => exists_congr fun field => exists_congr fun after =>
    and_congr_right fun _ => ?_
  rw [hbefore]
  exact and_congr_right fun hacceptable => checkField_eq_error_iff hacceptable.2

/-! ## Numbers that are carried twice -/

/-- The number at a place comes again at a later one. -/
def RepeatedAt (numbers : List UInt32) (place : Nat) : Prop :=
  ∃ number later, numbers[place]? = some number ∧ place < later ∧ numbers[later]? = some number

theorem repeatedAt_zero_iff (number : UInt32) (rest : List UInt32) :
    RepeatedAt (number :: rest) 0 ↔ number ∈ rest := by
  rw [List.mem_iff_getElem?]
  constructor
  · rintro ⟨same, later, hsame, hlater, hagain⟩
    obtain ⟨later, rfl⟩ := Nat.exists_eq_succ_of_ne_zero hlater.ne'
    cases hsame
    exact ⟨later, hagain⟩
  · rintro ⟨later, hagain⟩
    exact ⟨number, later + 1, rfl, Nat.succ_pos later, hagain⟩

theorem repeatedAt_succ_iff (number : UInt32) (rest : List UInt32) (place : Nat) :
    RepeatedAt (number :: rest) (place + 1) ↔ RepeatedAt rest place := by
  constructor
  · rintro ⟨same, later, hsame, hlater, hagain⟩
    obtain ⟨later, rfl⟩ := Nat.exists_eq_succ_of_ne_zero (Nat.ne_zero_of_lt hlater)
    exact ⟨same, later, hsame, Nat.lt_of_succ_lt_succ hlater, hagain⟩
  · rintro ⟨same, later, hsame, hlater, hagain⟩
    exact ⟨same, later + 1, hsame, Nat.succ_lt_succ hlater, hagain⟩

theorem firstRepeated_eq_some_iff (numbers : List UInt32) (number : UInt32) :
    firstRepeated? numbers = some number ↔ ∃ place, numbers[place]? = some number ∧
      RepeatedAt numbers place ∧ ∀ earlier < place, ¬ RepeatedAt numbers earlier := by
  induction numbers with
  | nil => simp [firstRepeated?]
  | cons first rest ih =>
      rw [firstRepeated?]
      by_cases hagain : first ∈ rest
      · rw [if_pos hagain]
        have hzero := (repeatedAt_zero_iff first rest).mpr hagain
        constructor
        · rintro ⟨⟩
          exact ⟨0, rfl, hzero, fun _ h => absurd h (Nat.not_lt_zero _)⟩
        · rintro ⟨place, hplace, -, hearlier⟩
          cases place with
          | zero => exact hplace
          | succ place => exact absurd hzero (hearlier 0 (Nat.succ_pos place))
      · rw [if_neg hagain, ih]
        have hzero := mt (repeatedAt_zero_iff first rest).mp hagain
        constructor
        · rintro ⟨place, hplace, hrepeated, hearlier⟩
          refine ⟨place + 1, hplace, (repeatedAt_succ_iff _ _ _).mpr hrepeated, ?_⟩
          intro earlier hlt
          cases earlier with
          | zero => exact hzero
          | succ earlier =>
              rw [repeatedAt_succ_iff]
              exact hearlier earlier (Nat.lt_of_succ_lt_succ hlt)
        · rintro ⟨place, hplace, hrepeated, hearlier⟩
          cases place with
          | zero => exact absurd hrepeated hzero
          | succ place =>
              refine ⟨place, hplace, (repeatedAt_succ_iff _ _ _).mp hrepeated, ?_⟩
              intro earlier hlt
              rw [← repeatedAt_succ_iff first]
              exact hearlier (earlier + 1) (Nat.succ_lt_succ hlt)

/-! ## Both checks -/

/-- Validation passes exactly the descriptors whose fields are acceptable. It fails with what is
wrong with the first field that offends, after fields that are acceptable by themselves. The search
for a duplicate finds none exactly if the numbers differ, and otherwise the number of the earliest
field whose number comes again. -/
theorem checks_exact (descriptor : MessageDescriptor) :
    (descriptor.validate = .ok () ↔ StandardField.Acceptable descriptor.standardFields) ∧
    (∀ error, descriptor.validate = .error error ↔ ∃ before field after,
      descriptor.standardFields = before ++ field :: after ∧ StandardField.Acceptable before ∧
        field.Offends before error) ∧
    (descriptor.duplicateNumber? = none ↔ (descriptor.standardFields.map (·.number)).Nodup) ∧
    ∀ number, descriptor.duplicateNumber? = some number ↔
      ∃ place, (descriptor.standardFields.map (·.number))[place]? = some number ∧
        RepeatedAt (descriptor.standardFields.map (·.number)) place ∧
        ∀ earlier < place, ¬ RepeatedAt (descriptor.standardFields.map (·.number)) earlier := by
  refine ⟨validate_eq_ok_iff descriptor, validate_eq_error_iff descriptor,
    duplicateNumber_eq_none_iff descriptor, fun number => ?_⟩
  rw [duplicateNumber_eq]
  exact firstRepeated_eq_some_iff _ number

/-- Of the numbers 1, 2, 2, 1 validation refuses the second 2, which is the first to come again. The
search stops at the first 1, which comes again later. -/
example :
    let text (number : UInt32) (name : String) : StandardField :=
      { number, name, type := .scalar .string }
    let crossed : MessageDescriptor :=
      { name := "Crossed", dialect := .proto3, entries := [
        .standard (text 1 "a"), .oneof ⟨"choice", [text 2 "b", text 2 "c"], false⟩,
        .standard (text 1 "d")] }
    crossed.validate = .error (.duplicateFieldNumber 2 "b" "c") ∧
      crossed.duplicateNumber? = some 1 := by
  decide

end MessageDescriptor

end ProtoWire
