import ProtoWire.Declaration.Enumeration
import ProtoWire.Declaration.Oneof
import ProtoWire.Proofs.Accepted

/-! # Accepted variants

What the declarations of a oneof and of an enumeration have to be, said in terms of what the
attributes of their variants are read as. Both are enumerations by their kind, and their variants
are tested one after the other; only an enumeration is tested as a whole once its variants are
sound.
-/

namespace ProtoWire.Declaration

/-- Variants are declared. -/
def Body.HasVariants (body : Body) : Prop := ∃ variants, body = .variants variants

/-- The variants of a body. -/
def Body.listedVariants : Body → List Variant
  | .variants listed => listed
  | .named _ | .positional | .unit | .overlapping => []

/-- A variant holds one type, without a name. -/
def VariantShape.HoldsOne (shape : VariantShape) : Prop := ∃ type, shape = .positional [type]

theorem VariantShape.isSome_single?_iff (shape : VariantShape) :
    shape.single?.isSome = true ↔ shape.HoldsOne := by
  cases shape with
  | unit | named => simp [single?, HoldsOne]
  | positional types =>
      rcases types with _ | ⟨type, _ | ⟨other, rest⟩⟩
      · simp [single?, HoldsOne]
      · exact iff_of_true rfl ⟨type, rfl⟩
      · simp [single?, HoldsOne]

/-! ## Oneofs -/

/-- A variant whose attributes are read as those of a member. -/
structure ReadMember extends Variant where
  options : MemberOptions
  isRead : readOptions MemberOptions.table {} attributes = .ok options

namespace ReadMember

/-- A variant that is fit to be a member. -/
structure Sound (member : ReadMember) : Prop where
  shape : member.shape.HoldsOne
  number : ∃ number, member.options.number = some number ∧ Tag.Allowed number

/-- The rules for a member: its shape, and that its number is there and may be carried. -/
def rules (member : ReadMember) : List Rule :=
  ⟨member.shape.HoldsOne, .memberShape⟩ :: numberRules .missingMemberNumber member.options.number

theorem followed_rules {member : ReadMember} : Followed member.rules ↔ member.Sound := by
  rw [rules, followed_cons, followed_numberRules]
  constructor
  · rintro ⟨hshape, hnumber⟩
    exact ⟨hshape, hnumber⟩
  · intro h
    exact ⟨h.shape, h.number⟩

theorem enforces_toMember (member : ReadMember) :
    Enforces member.toMember member.rules := by
  have hshape := member.shape.isSome_single?_iff
  rw [Variant.toMember, rules, member.isRead]
  cases hsingle : member.shape.single? with
  | none => exact .fail (hshape.not.mp (by simp [hsingle]))
  | some type =>
      refine .skip (hshape.mp (by rw [hsingle]; rfl)) ?_
      dsimp only
      cases member.options.number with
      | none => exact enforces_missing _
      | some number => exact enforces_given _ _ _

end ReadMember

/-- The rules for the declaration of a oneof, in the order in which they are tested. -/
def oneofRules (declaration : Declaration) (members : List ReadMember) : List Rule :=
  ⟨declaration.body.HasVariants, .oneofNotEnumeration⟩ :: members.flatMap (·.rules)

theorem enforces_acceptOneof {declaration : Declaration} {members : List ReadMember}
    (hmembers : declaration.body.listedVariants = members.map (·.toVariant)) :
    Enforces (acceptOneof declaration) (oneofRules declaration members) := by
  rw [acceptOneof, oneofRules]
  cases hbody : declaration.body with
  | variants variants =>
      rw [hbody] at hmembers
      obtain rfl : variants = members.map (·.toVariant) := hmembers
      refine .skip ⟨_, rfl⟩ ?_
      dsimp only
      rw [List.mapM_map]
      exact (Enforces.mapM fun member _ => member.enforces_toMember).map _
  | named | positional | unit | overlapping => exact .fail (by simp [Body.HasVariants])

/-! ## Enumerations -/

/-- A variant is accepted for its value or for all other numbers, whichever alone is told. -/
theorem cases_of_classifyVariant {name : Identifier} {options : VariantOptions}
    {shape : VariantShape} {made : AcceptedVariant} (hmade : classifyVariant name options shape = .ok made) :
    (∃ value, options.value = some value ∧ options.unrecognized = false ∧
      made = .known name value) ∨
    (options.value = none ∧ options.unrecognized = true ∧ made = .unrecognized name) := by
  rw [classifyVariant] at hmade
  split at hmade
  next value hvalue hunrecognized =>
    split at hmade <;> cases hmade
    exact .inl ⟨value, hvalue, hunrecognized, rfl⟩
  next hvalue hunrecognized =>
    split at hmade <;> cases hmade
    exact .inr ⟨hvalue, hunrecognized, rfl⟩
  all_goals cases hmade

/-- A variant whose attributes are read as those of an enumeration's variant. -/
structure ReadVariant extends Variant where
  options : VariantOptions
  isRead : VariantOptions.read attributes = .ok options

namespace ReadVariant

/-- A variant that stands for a value. -/
structure IsKnown (variant : ReadVariant) : Prop where
  shape : variant.shape = .unit
  value : variant.options.value.isSome = true
  unrecognized : variant.options.unrecognized = false

/-- A variant that stands for all other numbers. -/
structure IsUnrecognized (variant : ReadVariant) : Prop where
  shape : variant.shape.HoldsOne
  value : variant.options.value = none
  unrecognized : variant.options.unrecognized = true

/-- The rules for a variant: exactly one of its options is set, and the shape is the one for it. -/
def rules (variant : ReadVariant) : List Rule := [
  ⟨¬ (variant.options.value.isSome = true ∧ variant.options.unrecognized = true),
    .conflictingVariantOptions⟩,
  ⟨variant.options.value.isSome = true ∨ variant.options.unrecognized = true, .missingValue⟩,
  ⟨variant.options.value.isSome = true → variant.shape = .unit, .valuedShape⟩,
  ⟨variant.options.unrecognized = true → variant.shape.HoldsOne, .unrecognizedShape⟩]

theorem followed_rules {variant : ReadVariant} :
    Followed variant.rules ↔ variant.IsKnown ∨ variant.IsUnrecognized := by
  simp only [rules, followed_cons, followed_nil, and_true]
  constructor
  · rintro ⟨hexclusive, hvalue | hunrecognized, hunit, hone⟩
    · exact .inl ⟨hunit hvalue, hvalue, Bool.eq_false_iff.mpr fun h => hexclusive ⟨hvalue, h⟩⟩
    · refine .inr ⟨hone hunrecognized, ?_, hunrecognized⟩
      exact Option.not_isSome_iff_eq_none.mp fun h => hexclusive ⟨h, hunrecognized⟩
  · rintro (h | h)
    · simp [h.shape, h.value, h.unrecognized]
    · simp [h.shape, h.value, h.unrecognized]

theorem toVariant_eq (variant : ReadVariant) : variant.toVariant.toVariant =
    classifyVariant variant.name variant.options variant.shape := by
  rw [Variant.toVariant, variant.isRead]

theorem enforces_toVariant (variant : ReadVariant) :
    Enforces variant.toVariant.toVariant variant.rules := by
  rw [toVariant_eq, rules, classifyVariant]
  have hshape := variant.shape.isSome_single?_iff
  cases variant.options.value with
  | some value =>
      cases variant.options.unrecognized with
      | true => exact .fail (by simp)
      | false =>
          refine .skip (by simp) (.skip (by simp) ?_)
          cases variant.shape with
          | unit => exact .skip (by simp) (.skip (by simp) (.ok _))
          | positional | named => exact .fail (by simp)
  | none =>
      cases variant.options.unrecognized with
      | true =>
          refine .skip (by simp) (.skip (by simp) (.skip (by simp) ?_))
          dsimp only
          split
          next hone => exact .skip (fun _ => hshape.mp hone) (.ok _)
          next hone => exact .fail fun h => hone (hshape.mpr (h rfl))
      | false => exact .skip (by simp) (.fail (by simp))

/-- What is made of a variant tells whether it is for other numbers. -/
theorem unrecognizedVariants_of_toVariant {variant : ReadVariant} {made : AcceptedVariant}
    (hmade : variant.toVariant.toVariant = .ok made) (rest : List AcceptedVariant) :
    (unrecognizedVariants (made :: rest)).length =
      (unrecognizedVariants rest).length + if variant.options.unrecognized then 1 else 0 := by
  rw [toVariant_eq] at hmade
  obtain ⟨value, -, hunrecognized, rfl⟩ | ⟨-, hunrecognized, rfl⟩ := cases_of_classifyVariant hmade
  · rw [hunrecognized]
    rfl
  · rw [hunrecognized]
    rfl

end ReadVariant

/-- As many variants are for other numbers as are marked so. -/
theorem length_unrecognizedVariants {variants : List ReadVariant} {accepted : List AcceptedVariant}
    (haccepted : List.Forall₂ (fun variant made => variant.toVariant.toVariant = .ok made)
      variants accepted) :
    (unrecognizedVariants accepted).length = variants.countP (·.options.unrecognized) := by
  induction haccepted with
  | nil => rfl
  | cons hmade _ ih =>
      rw [ReadVariant.unrecognizedVariants_of_toVariant hmade, ih, List.countP_cons]

/-- The rules for all variants together: exactly one is for other numbers. -/
def unrecognizedRules (variants : List ReadVariant) : List Rule := [
  ⟨1 ≤ variants.countP (·.options.unrecognized), .missingUnrecognized⟩,
  ⟨variants.countP (·.options.unrecognized) ≤ 1, .repeatedUnrecognized⟩]

/-- The rules for the declaration of an enumeration, in the order in which they are tested. -/
def enumerationRules (declaration : Declaration) (variants : List ReadVariant) : List Rule :=
  ⟨declaration.body.HasVariants, .enumerationNotEnumeration⟩ ::
    (variants.flatMap (·.rules) ++ unrecognizedRules variants)

theorem enforces_acceptEnumeration {declaration : Declaration} {variants : List ReadVariant}
    (hvariants : declaration.body.listedVariants = variants.map (·.toVariant)) :
    Enforces (acceptEnumeration declaration) (enumerationRules declaration variants) := by
  rw [acceptEnumeration, enumerationRules]
  cases hbody : declaration.body with
  | variants listed =>
      rw [hbody] at hvariants
      obtain rfl : listed = variants.map (·.toVariant) := hvariants
      refine .skip ⟨_, rfl⟩ ?_
      dsimp only
      rw [List.mapM_map]
      refine (Enforces.mapM fun variant _ => variant.enforces_toVariant).bind
        fun accepted haccepted => ?_
      have hcount := length_unrecognizedVariants (forall₂_of_mapM_ok haccepted)
      rw [unrecognizedRules, ← hcount]
      match unrecognizedVariants accepted with
      | [] => exact .fail (by simp)
      | [name] => exact .skip (by simp) (.skip (by simp) (.ok _))
      | _ :: _ :: _ => exact .skip (by simp) (.fail (by simp))
  | named | positional | unit | overlapping => exact .fail (by simp [Body.HasVariants])

/-- If the attributes of its variants are read, a declaration is accepted as that of a oneof exactly
if it lists variants that hold one type each and carry a number that may be carried. It is accepted
as that of an enumeration exactly if each variant either has a value and holds nothing or is for all
other numbers and holds one type, and exactly one is of the second kind. Otherwise the first rule
that is broken is reported: of the kind, of the variants one after the other, and for an enumeration
that of how many variants are for other numbers. -/
theorem variants_accepted_or_first_fault :
    (∀ (declaration : Declaration) (members : List ReadMember),
      declaration.body.listedVariants = members.map (·.toVariant) →
        ((∃ oneof, acceptOneof declaration = .ok oneof) ↔
          declaration.body.HasVariants ∧ ∀ member ∈ members, member.Sound) ∧
        ∀ fault, acceptOneof declaration = .error fault ↔
          FirstBroken (oneofRules declaration members) fault) ∧
    (∀ (declaration : Declaration) (variants : List ReadVariant),
      declaration.body.listedVariants = variants.map (·.toVariant) →
        ((∃ enumeration, acceptEnumeration declaration = .ok enumeration) ↔
          declaration.body.HasVariants ∧
          (∀ variant ∈ variants, variant.IsKnown ∨ variant.IsUnrecognized) ∧
          variants.countP (·.options.unrecognized) = 1) ∧
        ∀ fault, acceptEnumeration declaration = .error fault ↔
          FirstBroken (enumerationRules declaration variants) fault) := by
  refine ⟨fun declaration members hmembers => ?_, fun declaration variants hvariants => ?_⟩
  · refine ⟨(enforces_acceptOneof hmembers).ok_iff.trans ?_, enforces_acceptOneof hmembers⟩
    rw [oneofRules, followed_cons, followed_flatMap]
    simp only [ReadMember.followed_rules]
  · refine ⟨(enforces_acceptEnumeration hvariants).ok_iff.trans ?_,
      enforces_acceptEnumeration hvariants⟩
    rw [enumerationRules, followed_cons, followed_append, followed_flatMap, unrecognizedRules]
    simp only [ReadVariant.followed_rules, followed_cons, followed_nil, and_true]
    rw [← Nat.le_antisymm_iff, eq_comm (a := 1)]

open Code (optionsOf)

/-- The members of a choice: a text, a count under a reserved number, and one that holds nothing. -/
def choiceMembers : List ReadMember := [
  { name := .ofString "Text", shape := .positional [.plain "String"]
    attributes := optionsOf [.word "tag", .symbol '=' false, .literal "1"]
    options := { number := some 1 }
    isRead := by cbv },
  { name := .ofString "Count", shape := .positional [.plain "u32"]
    attributes := optionsOf [.word "tag", .symbol '=' false, .literal "19500"]
    options := { number := some 19500 }
    isRead := by cbv },
  { name := .ofString "Nothing", shape := .unit
    attributes := []
    options := {}
    isRead := rfl }]

/-- The variants of a level: one with a value below zero, and two for other numbers. -/
def levelVariants : List ReadVariant := [
  { name := .ofString "Low", shape := .unit
    attributes := optionsOf [.word "value", .symbol '=' false, .symbol '-' false, .literal "1"]
    options := { value := some (-1) }
    isRead := by cbv },
  { name := .ofString "Other", shape := .positional [.plain "i32"]
    attributes := optionsOf [.word "unrecognized"]
    options := { unrecognized := true }
    isRead := by cbv },
  { name := .ofString "Rest", shape := .positional [.plain "i32"]
    attributes := optionsOf [.word "unrecognized"]
    options := { unrecognized := true }
    isRead := by cbv }]

/-- A choice is refused for its reserved number, though a later member breaks another rule, and a
level for its second variant for other numbers; without that variant it is accepted. -/
theorem reserved_number_and_second_rest_refused :
    let choice : Declaration :=
      ⟨.ofString "Choice", false, [], .variants (choiceMembers.map (·.toVariant))⟩
    let level (count : Nat) : Declaration :=
      ⟨.ofString "Level", false, [], .variants ((levelVariants.take count).map (·.toVariant))⟩
    FirstBroken (oneofRules choice choiceMembers) (.invalidNumber 19500) ∧
      FirstBroken (enumerationRules (level 3) levelVariants) .repeatedUnrecognized ∧
      ∃ enumeration, acceptEnumeration (level 2) = .ok enumeration := by
  intro choice level
  obtain ⟨honeof, henumeration⟩ := variants_accepted_or_first_fault
  have hchoice : acceptOneof choice = .error (.invalidNumber 19500) := by cbv
  have hlevel : acceptEnumeration (level 3) = .error .repeatedUnrecognized := by cbv
  refine ⟨((honeof choice choiceMembers rfl).2 _).mp hchoice,
    ((henumeration (level 3) levelVariants rfl).2 _).mp hlevel, ?_⟩
  refine (henumeration (level 2) (levelVariants.take 2) rfl).1.mpr ⟨⟨_, rfl⟩, ?_, rfl⟩
  refine List.forall_mem_cons.mpr ⟨.inl ⟨rfl, rfl, rfl⟩, ?_⟩
  exact List.forall_mem_singleton.mpr (.inr ⟨⟨_, rfl⟩, rfl, rfl⟩)

end ProtoWire.Declaration
