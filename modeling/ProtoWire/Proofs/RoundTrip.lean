import ProtoWire.Proofs.Restored

/-! # Round trips

A message is written as its records, every entry makes of its own among them the content that it
held, and the records that the message had captured are left over. All this goes on inside nested
messages as well, as deep as they were written.
-/

namespace ProtoWire

/-! ## Induction -/

/-- A message type of which all entries are restorable. -/
structure MessageSchema.Restorable (catalog : Catalog) (schema : MessageSchema) : Prop where
  numbered : schema.Numbered
  entries : ∀ entry ∈ schema.entries, entry.Restorable catalog

theorem Catalog.restorable {catalog : Catalog} (hnumbered : catalog.Numbered)
    (hoptions : catalog.OptionsSingular) (hdefaulted : catalog.Defaulted) (name : String) :
    (catalog.schema name).Restorable catalog where
  numbered := hnumbered.schema name
  entries entry hentry :=
    { declarable := catalog.declarable hnumbered hoptions name entry hentry
      nodup := (List.nodup_flatMap.mp (hnumbered.schema name).nodup).1 entry hentry
      defaulted := hdefaulted.schema name entry hentry }

section Induction

variable {catalog : Catalog}

/-- Values, messages and contents are restored when their parts are. -/
theorem inherits_restored (hrestorable : ∀ name, (catalog.schema name).Restorable catalog) :
    Inherits catalog (fun schema message => message.UnknownApart schema)
      (fun type value => type.isSingular = true →
        type.isPlain = true ∨ value.isOmitted catalog type = false →
          value.Restored catalog type)
      (fun schema message => schema.Restorable catalog → message.Restored catalog schema)
      (fun entries contents => entries.length = contents.length ∧
        ((∀ entry ∈ entries, entry.Restorable catalog) → ∀ dialect,
          ∀ pair ∈ entries.zip contents, pair.2.Restored catalog dialect pair.1))
      (fun entry content => entry.Restorable catalog → ∀ dialect,
        content.Restored catalog dialect entry) where
  scalar type scalar htype _ _ := by
    subst htype
    exact Value.restored_scalar scalar
  enumeration schema value _ _ := Value.restored_enumeration schema value
  message name message hmessage _ _ := by
    have hrestored := hmessage (hrestorable name)
    refine ⟨rfl, fun levels hlevels hsize => ?_⟩
    have hlength := UnknownValue.length_lt_of_size hsize
    -- The message itself takes one level; those below are for the messages nested in it.
    obtain ⟨below, rfl⟩ := Nat.exists_eq_add_of_le' hlevels
    have hbody := hrestored.message_eq (Nat.le_add_left _ below) hlength
    exact congrArg (Option.map Value.message) hbody
  -- An absent value is never written: its type is not plain, and it is left out.
  absent inner _ hpresent := by
    rcases hpresent with hplain | hwritten
    · cases hplain
    · cases hwritten
  present inner value hvalue hsingular _ := by
    have hplain : inner.isPlain = true := hsingular
    have hinner := hvalue (ValueType.isSingular_of_isPlain hplain) (.inl hplain)
    refine ⟨hinner.wireType_eq, fun levels hlevels hsize => ?_⟩
    exact congrArg (Option.map Value.present) (hinner.interpret_eq levels hlevels hsize)
  reference converter wire held value hvalue hsingular hpresent :=
    (hvalue hsingular hpresent).reference
  body schema contents unknown cache hunknown _ hcontents hschema :=
    { numbered := hschema.numbered
      unknownApart := hunknown
      length_eq := hcontents.1
      restored := hcontents.2 hschema.entries schema.dialect }
  nil := ⟨rfl, fun _ _ _ hpair => (List.not_mem_nil hpair).elim⟩
  cons entry content entries contents hcontent hcontents := by
    refine ⟨congrArg Nat.succ hcontents.1, fun hentries dialect pair hpair => ?_⟩
    rw [List.zip_cons_cons] at hpair
    rcases List.mem_cons.mp hpair with rfl | hpair
    · exact hcontent (hentries entry List.mem_cons_self) dialect
    · exact hcontents.2 (fun other hother => hentries other (List.mem_cons_of_mem entry hother))
        dialect pair hpair
  singular name number type optional nonNull value hconforms hvalue hentry dialect := by
    have hsingular := Entry.isSingular_of_optionsSingular hentry.declarable.2
    exact restored_singular hconforms hentry (hvalue hsingular)
  repeated name number element packed values hvalues hentry dialect := by
    have hplain : element.isPlain = true := hentry.declarable.2
    exact restored_repeated fun value hvalue =>
      hvalues value hvalue (ValueType.isSingular_of_isPlain hplain) (.inl hplain)
  mapping name number key type order entries hkeys horder hvalues hentry dialect := by
    have hplain : type.isPlain = true := hentry.declarable.2
    exact restored_map hkeys fun entry hmem =>
      hvalues entry hmem (ValueType.isSingular_of_isPlain hplain) (.inl hplain)
  unset name schema _ dialect := .of_no_records rfl fun _ => rfl
  chosen name schema required place member value hmember hvalue hentry dialect := by
    have hplain : member.type.isPlain = true :=
      List.all_eq_true.mp hentry.declarable.2 member (List.mem_of_getElem? hmember)
    exact restored_chosen hmember hentry
      (hvalue (ValueType.isSingular_of_isPlain hplain) (.inl hplain))

theorem Message.Conforms.restored (hnumbered : catalog.Numbered)
    (hoptions : catalog.OptionsSingular) (hdefaulted : catalog.Defaulted) {name : String}
    {message : Message}
    (hmessage : message.Conforms catalog (fun schema message => message.UnknownApart schema)
      (catalog.schema name)) :
    message.Restored catalog (catalog.schema name) :=
  (inherits_restored (catalog.restorable hnumbered hoptions hdefaulted)).of_message hmessage
    (catalog.restorable hnumbered hoptions hdefaulted name)

end Induction

/-! ## Round trips -/

namespace Catalog

/-- Let the captured records in a message be apart from its entries, at every depth. When a new pass
encodes the message in bytes that a length can count, then decoding the bytes with room for the
messages nested in them gives the message as it is received: the same up to the sign of zeros that
are left out, variants that share a number, forms of converted values, the order of maps without one
and remembered sizes. -/
theorem decode_encode {catalog : Catalog} (hnumbered : catalog.Numbered)
    (hoptions : catalog.OptionsSingular) (hdefaulted : catalog.Defaulted) {name : String}
    {message : Message}
    (hmessage : message.Conforms catalog (fun schema message => message.UnknownApart schema)
      (catalog.schema name)) {pass : Nat}
    (hunused : message.CachesUnused catalog (some pass) (catalog.schema name))
    (hlength : (catalog.encode name pass message).answer.length < addressSpace)
    {config : ReaderConfig}
    (hdepth : message.depth catalog (catalog.schema name) ≤ config.recursionLimit) :
    catalog.decode name (catalog.encode name pass message).answer config =
      .ok (message.asReceived catalog (catalog.schema name)) := by
  have hencode := hunused.encode_eq hnumbered hoptions
    (hmessage.mono fun _ _ hunknown => hunknown.numbered)
  rw [hencode] at hlength ⊢
  have hrestored := hmessage.restored hnumbered hoptions hdefaulted
  exact (decode_eq_ok_iff hnumbered).mpr (hrestored.message_eq hdepth hlength)

/-- A tree nested as deep as may be read, with captured records and a size remembered by an earlier
pass. -/
theorem tree_decode_encode :
    let trees : Catalog := ⟨[("Tree", Samples.tree)]⟩
    let tree (kids : List (Scalar × Value)) (child : Content) (unknown : List UnknownField)
        (cache : SizeCache) : Message :=
      .mk [.singular (.scalar (.string "")), .mapping kids, child, .repeated []] ⟨unknown⟩ cache
    let leaf : Value := .message (tree [] .unset [⟨6, .varint 7⟩] .empty)
    let root (cache : SizeCache) : Message :=
      tree [(.string "a", leaf)] (.chosen 1 leaf) [⟨2, .varint 0⟩] cache
    (root ⟨some ⟨4, 9⟩⟩).depth trees (trees.schema "Tree") ≤ 1 ∧
      trees.decode "Tree" (trees.encode "Tree" 5 (root ⟨some ⟨4, 9⟩⟩)).answer { recursionLimit := 1 } =
        .ok (root .empty) := by
  intro trees tree leaf root
  have hconforms : ∀ holds : MessageSchema → Message → Prop,
      holds Samples.tree (tree [] .unset [⟨6, .varint 7⟩] .empty) →
      holds Samples.tree (root ⟨some ⟨4, 9⟩⟩) →
        (root ⟨some ⟨4, 9⟩⟩).Conforms trees holds (trees.schema "Tree") := by
    intro holds hleaf hroot
    have hlabel : (Content.singular (.scalar (.string ""))).Conforms trees holds
        (Samples.scalar "label" 1 .string) := .singular _ _ _ _ _ _ (.scalar _ _ rfl)
    have hlist : (Content.repeated []).Conforms trees holds
        (Samples.repeated "list" 5 (.message "Tree")) := .repeated _ _ _ _ [] (by simp)
    have hvalue : leaf.Conforms trees holds (.message "Tree") :=
      .message "Tree" _ (.mk _ _ _ _ hleaf (.cons _ _ _ _ hlabel (.cons _ _ _ _
        (.mapping _ _ _ _ _ [] (by simp) .nil (by simp)) (.cons _ _ _ _ (.unset _ _)
          (.cons _ _ _ _ hlist .nil)))))
    refine .mk _ _ _ _ hroot (.cons _ _ _ _ hlabel (.cons _ _ _ _ ?_ (.cons _ _ _ _ ?_
      (.cons _ _ _ _ hlist .nil))))
    · refine .mapping _ _ _ _ _ _ ?_ (List.pairwise_singleton _ _) ?_
      · intro entry hentry
        rw [List.mem_singleton.mp hentry]
        rfl
      · intro entry hentry
        rw [List.mem_singleton.mp hentry]
        exact hvalue
    · exact .chosen _ _ _ 1 ⟨"Right", 4, .message "Tree"⟩ _ rfl hvalue
  have hnumbers : ∀ (number : UInt32) (value : UnknownValue), Tag.inRange number = true →
      UnknownFieldSet.Numbered ⟨[⟨number, value⟩]⟩ := by
    intro number value hnumber field hfield
    rw [List.mem_singleton.mp hfield]
    exact hnumber
  have hapart := hconforms (fun schema message => message.UnknownApart schema)
    ⟨hnumbers 6 (.varint 7) (by decide), by decide, by decide⟩
    ⟨hnumbers 2 (.varint 0) (by decide), by decide, by decide⟩
  have hunused : (root ⟨some ⟨4, 9⟩⟩).CachesUnused trees (some 5) (trees.schema "Tree") :=
    hconforms _ rfl rfl
  have hdepth : (root ⟨some ⟨4, 9⟩⟩).depth trees (trees.schema "Tree") ≤ 1 := by decide
  exact ⟨hdepth,
    decode_encode (by decide) (by decide) (by decide) hapart hunused (by decide) hdepth⟩

/-- Variants with one number are not told apart, though no number is without a variant. -/
theorem shared_number_decoded_as_first :
    let messages : Catalog := ⟨[("Required", Samples.required), ("Inner", Samples.inner)]⟩
    let inner : Message := .mk [.singular (.scalar (.int32 0)), .singular (.scalar (.string ""))]
      .empty .empty
    let message (variant : Nat) : Message :=
      .mk [.singular (.scalar (.float 0)), .singular (.scalar (.string "")),
        .singular (.enumeration (.variant variant)), .singular (.scalar (.bytes [])),
        .singular (.message inner), .singular (.scalar (.bool false))] .empty .empty
    let onlyUnrecognized : Rewriting := { Rewriting.received with
      enumeration := fun schema value =>
        if value.isRecognized then value else schema.ofNumber (schema.number value) }
    messages.Numbered ∧ messages.OptionsSingular ∧ messages.Defaulted ∧
      (message 2).Conforms messages (fun schema message => message.UnknownApart schema)
        (messages.schema "Required") ∧
      (message 2).CachesUnused messages (some 0) (messages.schema "Required") ∧
      (message 2).depth messages (messages.schema "Required") ≤ 100 ∧
      (messages.encode "Required" 0 (message 2)).answer.length < addressSpace ∧
      messages.decode "Required" (messages.encode "Required" 0 (message 2)).answer {} =
        .ok (message 1) ∧
      message 1 ≠ (message 2).rebuild messages onlyUnrecognized (messages.schema "Required") := by
  intro messages inner message onlyUnrecognized
  have hnumbered : messages.Numbered := by decide
  have hconforms : ∀ holds : MessageSchema → Message → Prop, holds Samples.inner inner →
      holds Samples.required (message 2) →
        (message 2).Conforms messages holds (messages.schema "Required") := by
    intro holds hinner hmessage
    have hscalar : ∀ (name : String) (number : UInt32) (nonNull : Bool) (scalar : Scalar),
        (Content.singular (.scalar scalar)).Conforms messages holds
          (.singular name number (.scalar scalar.type) false nonNull) :=
      fun _ _ _ scalar => .singular _ _ _ _ _ _ (.scalar _ scalar rfl)
    have hboxed : (Value.message inner).Conforms messages holds (.message "Inner") :=
      .message "Inner" _ (.mk _ _ _ _ hinner (.cons _ _ _ _ (hscalar "value" 1 false (.int32 0))
        (.cons _ _ _ _ (hscalar "label" 2 false (.string "")) .nil)))
    exact .mk _ _ _ _ hmessage (.cons _ _ _ _ (hscalar "r_float" 3 true (.float 0))
      (.cons _ _ _ _ (hscalar "r_string" 1 true (.string ""))
      (.cons _ _ _ _ (.singular _ _ _ _ _ _ (.enumeration _ _))
      (.cons _ _ _ _ (hscalar "r_bytes" 4 true (.bytes []))
      (.cons _ _ _ _ (.singular _ _ _ _ _ _ hboxed)
      (.cons _ _ _ _ (hscalar "type" 6 true (.bool false)) .nil))))))
  have hempty : ∀ schema contents,
      (Message.mk contents UnknownFieldSet.empty SizeCache.empty).UnknownApart schema :=
    fun _ _ => ⟨fun _ h => (List.not_mem_nil h).elim, fun _ h => (List.not_mem_nil h).elim,
      fun _ => rfl⟩
  have hsplits : SplitsInto (messages.encode "Required" 0 (message 2)).answer
      [⟨3, .fixed32 0⟩, ⟨1, .lengthDelimited []⟩, ⟨2, .varint 1⟩, ⟨4, .lengthDelimited []⟩,
        ⟨5, .lengthDelimited []⟩, ⟨6, .varint 0⟩] := splitsInto_iff.mpr (by decide)
  have hdecode : messages.decode "Required" (messages.encode "Required" 0 (message 2)).answer {} =
      .ok (message 1) := by
    rw [decode_eq_ok_iff hnumbered, message_eq, splitsInto_iff.mp hsplits]
    rfl
  refine ⟨hnumbered, by decide, by decide, hconforms _ (hempty _ _) (hempty _ _),
    hconforms _ rfl rfl, by decide, by decide, hdecode, ?_⟩
  intro hsame
  cases hsame

end Catalog

end ProtoWire
