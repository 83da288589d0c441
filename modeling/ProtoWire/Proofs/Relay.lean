import ProtoWire.Proofs.Canonical

/-! # Relays

A message may pass through a program that knows fewer of its entries and keeps the records of the
others. Every entry that both know makes the same content of the same records, and of the records
that one side alone knows none changes place among those of its entry. So nothing is lost but the
sign of zeros that the relay leaves out, whatever order it holds its maps in.
-/

namespace ProtoWire

/-! ## Entries under other names -/

namespace Entry

/-- What an entry is encoded and decoded by: all but its names and how it is packed or described. -/
def coding : Entry → Entry
  | .singular _ number type _ nonNull => .singular "" number type false nonNull
  | .repeated _ number element _ => .repeated "" number element none
  | .map _ number key value order => .map "" number key value order
  | .oneof _ schema required =>
      .oneof "" ⟨"", schema.members.map fun member => { member with name := "" }⟩ required

theorem memberFor_coding (schema : OneofSchema) (tag : UInt32) :
    OneofSchema.memberFor? ⟨"", schema.members.map fun member => { member with name := "" }⟩ tag =
      schema.memberFor? tag := by
  rw [OneofSchema.memberFor?, OneofSchema.memberFor?, List.findIdx?_map]
  rfl

theorem accepts_coding (entry : Entry) (tag : UInt32) :
    entry.coding.accepts tag = entry.accepts tag := by
  cases entry with
  | singular | repeated | map => rfl
  | oneof name schema required =>
      rw [coding, accepts, accepts, memberFor_coding]

theorem assemble_coding (catalog : Catalog) (body : String → Bytes → Option Message)
    (entry : Entry) (records : List UnknownField) :
    entry.coding.assemble? catalog body records = entry.assemble? catalog body records := by
  cases entry with
  | singular | repeated | map => rfl
  | oneof name schema required =>
      have hchoice : OneofSchema.choice? body
          ⟨"", schema.members.map fun member => { member with name := "" }⟩ =
            schema.choice? body := by
        funext record
        rw [OneofSchema.choice?, OneofSchema.choice?, memberFor_coding]
        congr 1
        funext place
        rw [List.getElem?_map]
        cases schema.members[place]? <;> rfl
      rw [coding, assemble?, assemble?, hchoice]

theorem rebuild_coding (catalog : Catalog) (rewriting : Rewriting) (entry : Entry)
    (content : Content) :
    content.rebuild catalog rewriting entry.coding = content.rebuild catalog rewriting entry := by
  cases entry with
  | singular | repeated | map => cases content <;> rfl
  | oneof name schema required =>
      cases content with
      | chosen place value =>
          rw [coding, Content.rebuild, Content.rebuild, List.getElem?_map]
          cases schema.members[place]? <;> rfl
      | singular | repeated | mapping | unset => rfl

section Same

variable {entry other : Entry} (hcoding : other.coding = entry.coding)
include hcoding

theorem accepts_eq_of_coding (tag : UInt32) : other.accepts tag = entry.accepts tag := by
  rw [← accepts_coding other, hcoding, accepts_coding]

theorem own_eq_of_coding (records : List UnknownField) : other.own records = entry.own records := by
  simp only [own, accepts_eq_of_coding hcoding]

theorem assemble_eq_of_coding (catalog : Catalog) (body : String → Bytes → Option Message)
    (records : List UnknownField) :
    other.assemble? catalog body records = entry.assemble? catalog body records := by
  rw [← assemble_coding _ _ other, hcoding, assemble_coding]

theorem rebuild_eq_of_coding (catalog : Catalog) (rewriting : Rewriting) (content : Content) :
    content.rebuild catalog rewriting other = content.rebuild catalog rewriting entry := by
  rw [← rebuild_coding _ _ other, hcoding, rebuild_coding]

end Same

end Entry

/-- Whether a message type has an entry that is encoded and decoded as the given one. -/
def MessageSchema.declares (schema : MessageSchema) (entry : Entry) : Bool :=
  schema.entries.any fun other => other.coding = entry.coding

/-- All entries of a message type are among those of another. -/
def MessageSchema.DeclaredWithin (old new : MessageSchema) : Prop :=
  ∀ entry ∈ old.entries, new.declares entry = true

instance : DecidableRel MessageSchema.DeclaredWithin := fun _ _ =>
  inferInstanceAs (Decidable (∀ _ ∈ _, _))

/-- A message after it went through a relay: zeros that are left out are positive in the entries
that the relay knows. -/
def Message.relayed (catalog : Catalog) (old new : MessageSchema) : Message → Message
  | .mk contents unknown cache =>
      .mk ((new.entries.zip contents).map fun pair =>
        if old.declares pair.1 then pair.2.rebuild catalog .positiveZeros pair.1 else pair.2)
        unknown cache

/-! ## Two message types -/

namespace MessageSchema

variable {old new : MessageSchema}

theorem exists_of_declares {schema : MessageSchema} {entry : Entry}
    (hdeclares : schema.declares entry = true) :
    ∃ other ∈ schema.entries, other.coding = entry.coding := by
  obtain ⟨other, hother, hcoding⟩ := List.any_eq_true.mp hdeclares
  exact ⟨other, hother, of_decide_eq_true hcoding⟩

/-- Entries of both types that take the same records are the same but for their names. -/
theorem DeclaredWithin.coding_eq (hwithin : old.DeclaredWithin new) (hnumbered : new.Numbered)
    {entry other : Entry} (hentry : entry ∈ old.entries) (hother : other ∈ new.entries)
    {tag : UInt32} (haccepts : entry.accepts tag = true) (haccepts' : other.accepts tag = true) :
    entry.coding = other.coding := by
  obtain ⟨same, hsame, hcoding⟩ := exists_of_declares (hwithin entry hentry)
  have htakes : same.accepts tag = true := by
    rw [Entry.accepts_eq_of_coding hcoding]
    exact haccepts
  obtain ⟨place, hplace⟩ := List.mem_iff_getElem?.mp hsame
  obtain ⟨place', hplace'⟩ := List.mem_iff_getElem?.mp hother
  have hsameplace := hnumbered.place_eq_of_accepts hplace hplace' htakes haccepts'
  rw [hsameplace, hplace'] at hplace
  cases hplace
  exact hcoding.symm

theorem DeclaredWithin.not_accepts (hwithin : old.DeclaredWithin new) (hnumbered : new.Numbered)
    {entry other : Entry} (hentry : entry ∈ old.entries) (hother : other ∈ new.entries)
    (hnot : old.declares other = false) {tag : UInt32} (haccepts : entry.accepts tag = true) :
    other.accepts tag = false := by
  by_contra htaken
  rw [Bool.not_eq_false] at htaken
  have hcoding := hwithin.coding_eq hnumbered hentry hother haccepts htaken
  have hdeclares : old.declares other = true :=
    List.any_eq_true.mpr ⟨entry, hentry, decide_eq_true hcoding⟩
  rw [hdeclares] at hnot
  cases hnot

/-- A record that no entry of the larger type takes is taken by none of the smaller. -/
theorem DeclaredWithin.any_accepts (hwithin : old.DeclaredWithin new) {tag : UInt32}
    (haccepts : old.entries.any (·.accepts tag) = true) :
    new.entries.any (·.accepts tag) = true := by
  obtain ⟨entry, hentry, htakes⟩ := List.any_eq_true.mp haccepts
  obtain ⟨other, hother, hcoding⟩ := exists_of_declares (hwithin entry hentry)
  refine List.any_eq_true.mpr ⟨other, hother, ?_⟩
  rw [Entry.accepts_eq_of_coding hcoding]
  exact htakes

/-- The smaller type makes a message of all records of which the larger makes one. -/
theorem DeclaredWithin.exists_assemble (hwithin : old.DeclaredWithin new) {catalog : Catalog}
    {body : String → Bytes → Option Message} {records : List UnknownField} {message : Message}
    (hmessage : new.assemble? catalog body records = some message) :
    ∃ relay, old.assemble? catalog body records = some relay := by
  obtain ⟨contents, hcontents, _⟩ := Option.bind_eq_some_iff.mp hmessage
  obtain ⟨hlength, hpairs⟩ := zip_of_mapM hcontents
  have hread : ∀ entry ∈ old.entries, ∃ content,
      entry.assemble? catalog body (entry.own records) = some content := by
    intro entry hentry
    obtain ⟨other, hother, hcoding⟩ := exists_of_declares (hwithin entry hentry)
    obtain ⟨content, hpair⟩ := exists_mem_zip hlength hother
    have hassemble := hpairs _ hpair
    rw [Entry.own_eq_of_coding hcoding, Entry.assemble_eq_of_coding hcoding] at hassemble
    exact ⟨content, hassemble⟩
  obtain ⟨contents', hcontents'⟩ := exists_mapM hread
  exact ⟨_, by rw [assemble?, hcontents']; rfl⟩

end MessageSchema

/-! ## The way back -/

section Relaying

variable {catalog : Catalog} {old new : MessageSchema} {relay : Message}
  {records : List UnknownField}

/-- Contents that are rebuilt as others are so one by one, beside their entries. -/
theorem exists_mem_zip_of_rebuild {rewriting rewriting' : Rewriting} {entries : List Entry}
    {contents contents' : List Content} (hlength : entries.length = contents.length)
    (hsame : rebuildContents catalog rewriting entries contents =
      rebuildContents catalog rewriting' entries contents') {pair : Entry × Content}
    (hpair : pair ∈ entries.zip contents') :
    ∃ content, (pair.1, content) ∈ entries.zip contents ∧
      content.rebuild catalog rewriting pair.1 = pair.2.rebuild catalog rewriting' pair.1 := by
  induction entries generalizing contents contents' with
  | nil => cases hpair
  | cons entry entries ih =>
      cases contents' with
      | nil => cases hpair
      | cons content' contents' =>
          obtain ⟨content, contents, rfl⟩ := List.exists_cons_of_length_eq_add_one hlength.symm
          obtain ⟨hfirst, hothers⟩ := List.cons.inj hsame
          rw [List.zip_cons_cons]
          rcases List.mem_cons.mp hpair with rfl | hpair
          · exact ⟨content, List.mem_cons_self, hfirst⟩
          · obtain ⟨found, hfound, hrebuild⟩ := ih (Nat.succ.inj hlength) hothers hpair
            exact ⟨found, List.mem_cons_of_mem _ hfound, hrebuild⟩

/-- The records of an entry that the relay does not know all come through, in their order. -/
theorem own_of_relayed (hwithin : old.DeclaredWithin new) (hnumbered : new.Numbered)
    (hrelay : relay.Restored catalog old) (hunknown : relay.unknown.fields = old.leftover records)
    {other : Entry} (hother : other ∈ new.entries) (hnot : old.declares other = false) :
    other.own (relay.records catalog old) = other.own records := by
  have hcontents : other.own
      (contentsRecords catalog old.dialect old.entries relay.contents) = [] := by
    refine Entry.own_of_not_accepts fun record hrecord => ?_
    obtain ⟨pair, hpair, hrecord⟩ := Message.Restored.mem_contentsRecords hrecord
    exact hwithin.not_accepts hnumbered (List.of_mem_zip hpair).1 hother hnot
      ((hrelay.restored pair hpair).accepts_eq record hrecord)
  rw [Message.Restored.records_eq, Entry.own_append, hcontents, List.nil_append, hunknown,
    MessageSchema.leftover, Entry.own, Entry.own, List.filter_filter]
  -- What the entry takes, no entry of the relay does, so the relay kept it.
  refine List.filter_congr fun record _ => ?_
  cases htakes : other.accepts record.tag with
  | false => rfl
  | true =>
      have hleft : old.entries.any (·.accepts record.tag) = false := by
        refine List.any_eq_false.mpr fun entry hentry haccepts => ?_
        have hrefuses := hwithin.not_accepts hnumbered hentry hother hnot haccepts
        rw [htakes] at hrefuses
        cases hrefuses
      rw [hleft]
      rfl

/-- The records that the larger type leaves over all come through, in their order. -/
theorem leftover_of_relayed (hwithin : old.DeclaredWithin new)
    (hrelay : relay.Restored catalog old)
    (hunknown : relay.unknown.fields = old.leftover records) :
    new.leftover (relay.records catalog old) = new.leftover records := by
  have hcontents : new.leftover
      (contentsRecords catalog old.dialect old.entries relay.contents) = [] := by
    refine List.filter_eq_nil_iff.mpr fun record hrecord => ?_
    obtain ⟨pair, hpair, hrecord⟩ := Message.Restored.mem_contentsRecords hrecord
    have htaken : new.entries.any (·.accepts record.tag) = true :=
      hwithin.any_accepts (List.any_eq_true.mpr ⟨pair.1, (List.of_mem_zip hpair).1,
        (hrelay.restored pair hpair).accepts_eq record hrecord⟩)
    simp [htaken]
  rw [MessageSchema.leftover] at hcontents
  rw [Message.Restored.records_eq, MessageSchema.leftover, List.filter_append, hcontents,
    List.nil_append, hunknown, MessageSchema.leftover, MessageSchema.leftover, List.filter_filter]
  refine List.filter_congr fun record _ => ?_
  cases htaken : old.entries.any (·.accepts record.tag) with
  | false => simp
  | true =>
      rw [hwithin.any_accepts htaken]
      rfl

section Arranged

/-! The relay writes a message that is received as the one that it made of its records, with
positive zeros. -/

variable {levels : Nat} {arranged : Message}
  (hassemble : old.assemble? catalog (catalog.nested? levels) records = some relay)
  (harranged : arranged.Restored catalog old)
  (hreceived : arranged.asReceived catalog old = relay.positiveZeros catalog old)

include hassemble hreceived in
theorem unknown_of_relayed (hkeeps : old.keepsUnknown = true) :
    arranged.unknown.fields = old.leftover records := by
  obtain ⟨contents, _, hmade⟩ := Option.bind_eq_some_iff.mp hassemble
  cases hmade
  have hsame := congrArg Message.unknown hreceived
  rw [hkeeps, if_pos rfl] at hsame
  obtain ⟨held, unknown, cache⟩ := arranged
  exact congrArg UnknownFieldSet.fields hsame

include hassemble harranged hreceived in
/-- An entry that the relay knows makes the content that it made of the records that the relay was
given, with positive zeros. -/
theorem assemble_own_of_relayed (hdepth : arranged.depth catalog old ≤ levels)
    (hlength : (arranged.body catalog old).length < addressSpace) {entry : Entry}
    (hdeclares : old.declares entry = true) {content : Content}
    (hcontent : entry.assemble? catalog (catalog.nested? levels) (entry.own records) =
      some content) :
    entry.assemble? catalog (catalog.nested? levels)
        (entry.own (arranged.records catalog old)) =
      some (content.rebuild catalog .positiveZeros entry) := by
  obtain ⟨contents, hcontents, hmade⟩ := Option.bind_eq_some_iff.mp hassemble
  cases hmade
  obtain ⟨hcount, hpairs⟩ := zip_of_mapM hcontents
  have hsame : rebuildContents catalog .received old.entries arranged.contents =
      rebuildContents catalog .positiveZeros old.entries contents := by
    obtain ⟨held, unknown, cache⟩ := arranged
    exact congrArg Message.contents hreceived
  -- Both types made one content of the records, and the relay wrote one received as that.
  obtain ⟨same, hmember, hcoding⟩ := MessageSchema.exists_of_declares hdeclares
  obtain ⟨made, hpair⟩ := exists_mem_zip hcount hmember
  have hmade := hpairs _ hpair
  rw [Entry.own_eq_of_coding hcoding, Entry.assemble_eq_of_coding hcoding, hcontent] at hmade
  cases hmade
  obtain ⟨held, hheld, hrebuild⟩ := exists_mem_zip_of_rebuild harranged.length_eq hsame hpair
  have hagain := harranged.assemble_own_eq hdepth hlength hheld
  rw [hrebuild, Entry.own_eq_of_coding hcoding, Entry.assemble_eq_of_coding hcoding,
    Entry.rebuild_eq_of_coding hcoding] at hagain
  exact hagain

include hassemble harranged hreceived in
/-- What the larger type makes of the records that a relay writes is what it made of the records the
relay was given, up to the sign of zeros. -/
theorem assemble_of_relayed (hwithin : old.DeclaredWithin new) (hnumbered : new.Numbered)
    (hkeeps : old.keepsUnknown = true) {message : Message}
    (hmessage : new.assemble? catalog (catalog.nested? levels) records = some message)
    (hdepth : arranged.depth catalog old ≤ levels)
    (hlength : (arranged.body catalog old).length < addressSpace) :
    new.assemble? catalog (catalog.nested? levels) (arranged.records catalog old) =
      some (message.relayed catalog old new) := by
  obtain ⟨contents, hcontents, hmade⟩ := Option.bind_eq_some_iff.mp hmessage
  cases hmade
  obtain ⟨hcount, hpairs⟩ := zip_of_mapM hcontents
  have hunknown := unknown_of_relayed hassemble hreceived hkeeps
  have hread : ∀ pair ∈ new.entries.zip contents,
      pair.1.assemble? catalog (catalog.nested? levels)
          (pair.1.own (arranged.records catalog old)) =
        some (if old.declares pair.1 then pair.2.rebuild catalog .positiveZeros pair.1
          else pair.2) := by
    intro pair hpair
    cases hdeclares : old.declares pair.1 with
    | false =>
        rw [own_of_relayed hwithin hnumbered harranged hunknown (List.of_mem_zip hpair).1 hdeclares,
          hpairs pair hpair]
        rfl
    | true =>
        exact assemble_own_of_relayed hassemble harranged hreceived hdepth hlength hdeclares
          (hpairs pair hpair)
  rw [MessageSchema.assemble?, mapM_eq_map_zip hcount hread,
    leftover_of_relayed hwithin harranged hunknown]
  rfl

end Arranged

end Relaying

namespace Catalog

/-- Let a message type that keeps undeclared records have all its entries among those of another.
What decodes as the larger type decodes as the smaller. Let its maps without an order be held in
any order. When a length can count the bytes that the smaller message is then encoded in and the
messages nested in them are not too deep, they decode as the larger type to the same message, up to
the sign of zeros in the entries of the smaller. -/
theorem decode_relayed {catalog : Catalog} (hnumbered : catalog.Numbered)
    (hoptions : catalog.OptionsSingular) (hdefaulted : catalog.Defaulted)
    (hkeyed : catalog.Keyed) {old new : String}
    (hwithin : (catalog.schema old).DeclaredWithin (catalog.schema new))
    (hkeeps : (catalog.schema old).keepsUnknown = true) {bytes : Bytes} {config : ReaderConfig}
    {message : Message} (hdecode : catalog.decode new bytes config = .ok message) :
    ∃ relay, catalog.decode old bytes config = .ok relay ∧
      relay.Conforms catalog Message.Fresh (catalog.schema old) ∧
      ∀ arranged : Message, arranged.Conforms catalog Message.Fresh (catalog.schema old) →
        arranged.sorted catalog (catalog.schema old) =
          relay.sorted catalog (catalog.schema old) →
        ∀ pass, (catalog.encode old pass arranged).answer.length < addressSpace →
          arranged.depth catalog (catalog.schema old) ≤ config.recursionLimit →
            catalog.decode new (catalog.encode old pass arranged).answer config =
              .ok (message.relayed catalog (catalog.schema old) (catalog.schema new)) := by
  rw [decode_eq_ok_iff hnumbered, message_eq] at hdecode
  obtain ⟨records, hsplit, hmessage⟩ := Option.bind_eq_some_iff.mp hdecode
  obtain ⟨relay, hrelay⟩ := hwithin.exists_assemble hmessage
  have hdecode' : catalog.decode old bytes config = .ok relay := by
    rw [decode_eq_ok_iff hnumbered, message_eq, hsplit]
    exact hrelay
  have hdecoded := decoded_of_decode hnumbered hdefaulted hkeyed hdecode'
  refine ⟨relay, hdecode', hdecoded.conforms,
    fun arranged harranged hsorted pass hlength hdepth => ?_⟩
  have hrestored := (harranged.mono fun _ _ hfresh => hfresh.unknownApart).restored hnumbered
    hoptions hdefaulted
  have hreceived := hdecoded.asReceived_arranged hkeyed harranged hsorted
  rw [encode_fresh hnumbered hoptions harranged] at hlength ⊢
  rw [decode_eq_ok_iff hnumbered, message_eq, hrestored.split_eq hlength]
  exact assemble_of_relayed hrelay hrestored hreceived hwithin (hnumbered.schema new) hkeeps
    hmessage hdepth hlength

/-- A relay that knows two entries of three and writes its map the other way round. -/
theorem items_decode_relayed :
    let items : Entry := .repeated "items" 2 (.scalar .uint32) none
    let counts : Entry := Samples.hashMap "counts" 4 .int32 (.scalar .int32)
    let messages : Catalog := ⟨[
      ("Old", { name := "Old", entries := [Samples.scalar "weight" 1 .float, counts]
                unknownField := some "unknown" }),
      ("New", { name := "New", entries := [items, counts, Samples.scalar "mass" 1 .float]
                unknownField := some "unknown" })]⟩
    let bytes : Bytes := [18, 2, 1, 2, 34, 4, 8, 6, 16, 1, 13, 0, 0, 0, 128, 24, 7, 34, 4, 8, 5,
      16, 1, 16, 3]
    let first : Scalar × Value := (.int32 5, .scalar (.int32 1))
    let second : Scalar × Value := (.int32 6, .scalar (.int32 1))
    let numbers : List Value := [.scalar (.uint32 1), .scalar (.uint32 2), .scalar (.uint32 3)]
    let message (weight : UInt32) : Message :=
      .mk [.repeated numbers, .mapping [first, second], .singular (.scalar (.float weight))]
        ⟨[⟨3, .varint 7⟩]⟩ .empty
    let relay (counts : List (Scalar × Value)) : Message :=
      .mk [.singular (.scalar (.float 0x80000000)), .mapping counts]
        ⟨[⟨2, .lengthDelimited [1, 2]⟩, ⟨3, .varint 7⟩, ⟨2, .varint 3⟩]⟩ .empty
    messages.decode "New" bytes {} = .ok (message 0x80000000) ∧
      messages.decode "Old" bytes {} = .ok (relay [first, second]) ∧
      messages.decode "New" (messages.encode "Old" 0 (relay [second, first])).answer {} =
        .ok (message 0) := by
  intro items counts messages bytes first second numbers message relay
  have hnumbered : messages.Numbered := by decide
  have hsplits : SplitsInto bytes [⟨2, .lengthDelimited [1, 2]⟩,
      ⟨4, .lengthDelimited [8, 6, 16, 1]⟩, ⟨1, .fixed32 0x80000000⟩, ⟨3, .varint 7⟩,
      ⟨4, .lengthDelimited [8, 5, 16, 1]⟩, ⟨2, .varint 3⟩] := splitsInto_iff.mpr (by decide)
  have hnew : messages.decode "New" bytes {} = .ok (message 0x80000000) := by
    rw [decode_eq_ok_iff hnumbered, message_eq, splitsInto_iff.mp hsplits]
    rfl
  have hold : messages.decode "Old" bytes {} = .ok (relay [first, second]) := by
    rw [decode_eq_ok_iff hnumbered, message_eq, splitsInto_iff.mp hsplits]
    rfl
  obtain ⟨relay', hold', _, hagain⟩ := decode_relayed hnumbered (by decide) (by decide) (by decide)
    (by decide : (messages.schema "Old").DeclaredWithin (messages.schema "New")) rfl hnew
  rw [hold] at hold'
  cases hold'
  have harranged : (relay [second, first]).Conforms messages Message.Fresh
      (messages.schema "Old") := by
    have hnumbers : UnknownFieldSet.Numbered
        ⟨[⟨2, .lengthDelimited [1, 2]⟩, ⟨3, .varint 7⟩, ⟨2, .varint 3⟩]⟩ := by
      intro field hfield
      fin_cases hfield <;> rfl
    have hkeys : ([second, first].map Prod.fst).Nodup := by decide
    refine .mk _ _ _ _ ⟨⟨hnumbers, by decide, by decide⟩, rfl⟩ (.cons _ _ _ _
      (.singular _ _ _ _ _ _ (.scalar _ _ rfl)) (.cons _ _ _ _
        (.mapping _ _ _ _ _ _ (by decide) hkeys ?_) .nil))
    intro entry hentry
    rcases List.mem_pair.mp hentry with rfl | rfl
    · exact .scalar _ _ rfl
    · exact .scalar _ _ rfl
  exact ⟨hnew, hold, hagain _ harranged rfl 0 (by decide) (by decide)⟩

/-- A map entry without its value is given one, which the relay writes one level deeper than
anything that was read. -/
theorem missing_value_relayed_too_deep :
    let messages : Catalog := ⟨[("MapKeys", Samples.mapKeys), ("Header", Samples.header)]⟩
    let flat : ReaderConfig := { recursionLimit := 0 }
    let bytes : Bytes := [74, 5, 13, 1, 0, 0, 0]
    let header : Message := .mk [.singular (.scalar (.uint32 0)), .singular (.scalar (.string ""))]
      .empty .empty
    let message : Message :=
      .mk [.mapping [], .mapping [], .mapping [], .mapping [], .mapping [], .mapping [],
        .mapping [], .mapping [], .mapping [(.sfixed32 1, .message header)], .mapping [],
        .mapping [], .mapping []] .empty .empty
    messages.Numbered ∧ messages.OptionsSingular ∧ messages.Defaulted ∧ messages.Keyed ∧
      Samples.mapKeys.DeclaredWithin Samples.mapKeys ∧ Samples.mapKeys.keepsUnknown = true ∧
      messages.decode "MapKeys" bytes flat = .ok message ∧
      ∀ again, messages.decode "MapKeys" (messages.encode "MapKeys" 0 message).answer flat ≠
        .ok again := by
  intro messages flat bytes header message
  have hnumbered : messages.Numbered := by decide
  have hsplits : SplitsInto bytes [⟨9, .lengthDelimited [13, 1, 0, 0, 0]⟩] :=
    splitsInto_iff.mpr (by decide)
  have hdecode : messages.decode "MapKeys" bytes flat = .ok message := by
    rw [decode_eq_ok_iff hnumbered, message_eq, splitsInto_iff.mp hsplits]
    rfl
  have hagain : SplitsInto (messages.encode "MapKeys" 0 message).answer
      [⟨9, .lengthDelimited [13, 1, 0, 0, 0, 18, 0]⟩] := splitsInto_iff.mpr (by decide)
  refine ⟨hnumbered, by decide, by decide, by decide, by decide, rfl, hdecode, fun again => ?_⟩
  rw [Ne, decode_eq_ok_iff hnumbered, message_eq, splitsInto_iff.mp hagain]
  exact nofun

end Catalog

end ProtoWire
