import ProtoWire.Proofs.Generated

/-! # The names that decoding introduces

Decoding has a constant for every tag and a variable for every field whose value is read, all in one
scope. Constants are named by places and variables by fields, and both behind the same mark. The
names are told apart exactly if the fields are and none of them has the name of a tag.
-/

namespace ProtoWire

namespace Code

/-- The names that decoding introduces for fields, those of the constants first. -/
def DecodeCode.introduced (code : DecodeCode) : List String :=
  code.constants.map (·.name) ++ code.bindings.map (·.name)

/-- A name behind the mark that all introduced names have. -/
def marked (name : String) : String := "__" ++ name

theorem marked_injective : Function.Injective marked := by
  intro name other hmarked
  have hlists := congrArg String.toList hmarked
  simp only [marked, String.toList_append] at hlists
  exact String.toList_inj.mp (List.append_cancel_left hlists)

theorem tagName_eq_marked (place : Nat) : tagName place = marked s!"TAG_{place}" := by
  apply String.toList_inj.mp
  simp only [tagName, marked, String.toList_append]
  rfl

theorem packedTagName_eq_marked (place : Nat) :
    packedTagName place = marked s!"TAG_{place}_PACKED" := by
  apply String.toList_inj.mp
  simp only [packedTagName, marked, String.toList_append]
  rfl

end Code

namespace Declaration

open Code (marked marked_injective)

/-! ## Names that are taken -/

/-- The names that the tags of a field at a place have behind the mark. -/
def FieldOptions.takenNames (place : Nat) (options : FieldOptions) : List String :=
  s!"TAG_{place}" :: if options.repeated then [s!"TAG_{place}_PACKED"] else []

theorem FieldOptions.tagNames_eq_map (place : Nat) (options : FieldOptions) :
    options.tagNames place = (options.takenNames place).map marked := by
  rw [tagNames, takenNames, Code.tagName_eq_marked, Code.packedTagName_eq_marked]
  split <;> rfl

theorem FieldOptions.mem_takenNames {place : Nat} {options : FieldOptions} {name : String} :
    name ∈ options.takenNames place ↔
      name = s!"TAG_{place}" ∨ options.repeated = true ∧ name = s!"TAG_{place}_PACKED" := by
  rw [takenNames, List.mem_cons]
  cases options.repeated <;> simp

/-- The names that the tags of all fields have behind the mark. -/
def takenNames (fields : List ReadField) : List String :=
  (taggedFields fields).flatMap fun (field, place) => field.options.takenNames place

theorem tagNames_eq_map (fields : List ReadField) :
    ((taggedFields fields).flatMap fun (field, place) => field.options.tagNames place) =
      (takenNames fields).map marked := by
  simp only [takenNames, List.map_flatMap, FieldOptions.tagNames_eq_map]

theorem nodup_takenNames (fields : List ReadField) : (takenNames fields).Nodup := by
  apply List.Nodup.of_map marked
  rw [← tagNames_eq_map]
  exact Code.nodup_tagNames fields

/-- The names of the fields whose values are read into variables. -/
def heldNames (fields : List ReadField) : List String :=
  (fields.filter (!·.options.sizeCache)).map (·.name.name)

/-- A field is named like a tag: like that of a field at some place, or like its packed one. -/
def ReadField.NamedLikeTag (fields : List ReadField) (field : ReadField) : Prop :=
  ∃ (place : Nat) (tagged : ReadField), fields[place]? = some tagged ∧
    tagged.options.isNumbered = true ∧
    (field.name.name = s!"TAG_{place}" ∨
      tagged.options.repeated = true ∧ field.name.name = s!"TAG_{place}_PACKED")

theorem ReadField.namedLikeTag_iff {fields : List ReadField} {field : ReadField} :
    field.NamedLikeTag fields ↔ field.name.name ∈ takenNames fields := by
  simp only [takenNames, List.mem_flatMap, taggedFields, List.mem_filter, Prod.exists,
    List.mem_zipIdx_iff_getElem?, FieldOptions.mem_takenNames, NamedLikeTag]
  constructor
  · rintro ⟨place, tagged, hplace, hnumbered, hname⟩
    exact ⟨tagged, place, ⟨hplace, hnumbered⟩, hname⟩
  · rintro ⟨tagged, place, ⟨hplace, hnumbered⟩, hname⟩
    exact ⟨place, tagged, hplace, hnumbered, hname⟩

/-- Attributes are read as one thing only, so that the fields are told by what is declared. -/
theorem ReadsAs.fields_unique {declaration : Declaration} {options options' : MessageOptions}
    {fields fields' : List ReadField} (hreads : declaration.ReadsAs options fields)
    (hreads' : declaration.ReadsAs options' fields') : fields = fields' := by
  have hinjective : Function.Injective ReadField.toNamedField := by
    rintro ⟨named, options, hread⟩ ⟨named', options', hread'⟩ hnamed
    cases hnamed
    cases hread.symm.trans hread'
    rfl
  exact hinjective.list_map (hreads.fields.symm.trans hreads'.fields)

end Declaration

/-! ## Names that meet -/

namespace Code

open Declaration (AcceptedMessage ReadField acceptMessage heldNames messageFields takenNames)

variable {code : MessageCode} {fields : List ReadField}

theorem introduced_eq_map (htreats : code.Treats fields) :
    code.decode.introduced = (takenNames fields ++ heldNames fields).map marked := by
  have hconstants := congrArg (List.map Prod.fst) htreats.constants
  simp only [List.map_map, List.map_flatMap, Function.comp_def] at hconstants
  rw [DecodeCode.introduced, htreats.bindings, hconstants, List.map_append, heldNames,
    List.map_map]
  simp only [List.map_id', Declaration.tagNames_eq_map]
  rfl

/-- Constants are never named alike. So names meet only if two fields are named alike or if a field
is named like a tag. -/
theorem nodup_introduced_iff (htreats : code.Treats fields) :
    code.decode.introduced.Nodup ↔ (heldNames fields).Nodup ∧
      ∀ field ∈ fields, field.options.sizeCache = false → ¬ field.NamedLikeTag fields := by
  have hheld : (takenNames fields).Disjoint (heldNames fields) ↔
      ∀ field ∈ fields, field.options.sizeCache = false → ¬ field.NamedLikeTag fields := by
    simp only [heldNames, List.disjoint_right, List.forall_mem_map, List.mem_filter, and_imp,
      Bool.not_eq_true', ReadField.namedLikeTag_iff]
  rw [introduced_eq_map htreats, List.nodup_map_iff marked_injective, List.nodup_append', hheld]
  exact and_iff_right (Declaration.nodup_takenNames fields)

/-- The names that decoding introduces for the fields of an accepted message are all different
exactly if the fields that have a variable are named differently, raw or not, and none of them is
named like a tag. So fields that are named differently are enough only while none of their names is
that of a tag. -/
theorem names_apart_iff {declaration : Declaration} {message : AcceptedMessage}
    (haccepted : acceptMessage declaration = .ok message) :
    ∃ options fields, declaration.ReadsAs options fields ∧
      ((messageCode message).decode.introduced.Nodup ↔ (heldNames fields).Nodup ∧
        ∀ field ∈ fields, field.options.sizeCache = false → ¬ field.NamedLikeTag fields) := by
  obtain ⟨options, fields, hreads, -, hbecomes⟩ := Declaration.exists_becomes haccepted
  have hformed := Declaration.followed_messageRules.mp
    (hreads.enforces_acceptMessage.followed haccepted)
  refine ⟨options, fields, hreads, nodup_introduced_iff ?_⟩
  exact treats_of_becomes hbecomes hformed.unknown hformed.sizeCache

/-- The fields of a ledger: an amount that is named like the tag of the second field, which is a
oneof and has none, and lines that are named like the packed tag of the amount, which is not
repeated. -/
def ledgerFields : List ReadField := [
  { name := .ofString "TAG_1", type := .plain "u64"
    attributes := optionsOf [.word "tag", .symbol '=' false, .literal "3"]
    options := { number := some 3 }
    isRead := by cbv },
  { name := .ofString "r#type", type := .container "Option<Kind>" "Option" (.plain "Kind")
    attributes := optionsOf [.word "oneof"]
    options := { oneof := true }
    isRead := by cbv },
  { name := .ofString "TAG_0_PACKED", type := .container "Vec<u32>" "Vec" (.plain "u32")
    attributes := optionsOf [.word "tag", .symbol '=' false, .literal "2", .symbol ',' false,
      .word "repeated"]
    options := { number := some 2, repeated := true }
    isRead := by cbv }]

/-- The ledger as it is accepted. -/
def acceptedLedger : AcceptedMessage where
  name := .ofString "Ledger"
  fullName := "Ledger"
  dialect := .proto3
  fields := [
    ⟨.ofString "TAG_1", .plain "u64", .singular 3 false false⟩,
    ⟨.ofString "r#type", .container "Option<Kind>" "Option" (.plain "Kind"),
      .oneof (.plain "Kind") false⟩,
    ⟨.ofString "TAG_0_PACKED", .container "Vec<u32>" "Vec" (.plain "u32"),
      .repeated 2 none (.plain "u32")⟩]

/-- The names of a ledger look like those of tags, but no field has the tag. -/
theorem ledger_names_apart :
    let ledger : Declaration :=
      ⟨.ofString "Ledger", false, [], .named (ledgerFields.map (·.toNamedField))⟩
    acceptMessage ledger = .ok acceptedLedger ∧ ledger.ReadsAs {} ledgerFields ∧
      (messageCode acceptedLedger).decode.introduced =
        ["__TAG_0", "__TAG_2", "__TAG_2_PACKED", "__TAG_1", "__type", "__TAG_0_PACKED"] ∧
      (messageCode acceptedLedger).decode.introduced.Nodup := by
  intro ledger
  have haccepted : acceptMessage ledger = .ok acceptedLedger := by cbv
  have hreads : ledger.ReadsAs {} ledgerFields := ⟨rfl, rfl⟩
  have htaken : takenNames ledgerFields = ["TAG_0", "TAG_2", "TAG_2_PACKED"] := by cbv
  have hheld : heldNames ledgerFields = ["TAG_1", "type", "TAG_0_PACKED"] := by cbv
  have hapart : (takenNames ledgerFields ++ heldNames ledgerFields).Nodup := by
    rw [htaken, hheld]
    decide
  refine ⟨haccepted, hreads, by cbv, ?_⟩
  obtain ⟨options, fields, hreads', hiff⟩ := names_apart_iff haccepted
  cases hreads'.fields_unique hreads
  refine hiff.mpr ⟨hapart.of_append_right, fun field hfield hsize hnamed => ?_⟩
  have hname : field.name.name ∈ heldNames ledgerFields :=
    List.mem_map_of_mem (List.mem_filter.mpr ⟨hfield, by rw [hsize]; rfl⟩)
  exact List.disjoint_of_nodup_append hapart (ReadField.namedLikeTag_iff.mp hnamed) hname

/-- The fields of a tally: a count that is named like its own tag. -/
def tallyFields : List ReadField := [
  { name := .ofString "TAG_0", type := .plain "u64"
    attributes := optionsOf [.word "tag", .symbol '=' false, .literal "6"]
    options := { number := some 6 }
    isRead := by cbv }]

/-- A tally is accepted, but its only variable has the name of its only constant. -/
theorem tag_name_taken :
    let tally : Declaration :=
      ⟨.ofString "Tally", false, [], .named (tallyFields.map (·.toNamedField))⟩
    tally.ReadsAs {} tallyFields ∧ (tallyFields.map (·.name)).Nodup ∧
      ∃ message, acceptMessage tally = .ok message ∧
        (messageCode message).decode.introduced = ["__TAG_0", "__TAG_0"] ∧
        ¬ (messageCode message).decode.introduced.Nodup := by
  intro tally
  let message : AcceptedMessage :=
    ⟨.ofString "Tally", "Tally", .proto3,
      [⟨.ofString "TAG_0", .plain "u64", .singular 6 false false⟩]⟩
  have hnames : (messageCode message).decode.introduced = ["__TAG_0", "__TAG_0"] := by cbv
  refine ⟨⟨rfl, rfl⟩, List.nodup_singleton _, message, by cbv, hnames, ?_⟩
  rw [hnames]
  decide

end Code

end ProtoWire
