import ProtoWire.Proofs.Fields

/-! # Oneofs

A oneof is written as the record of its member and read back under the tag of that member. Under any
other tag nothing is read, so a message may try its oneofs one after the other, and each holds the
member set last among the records of its own.
-/

namespace ProtoWire

open Reader

/-- A oneof whose members have numbers in range, each its own, and values without options. -/
structure OneofSchema.Declarable (schema : OneofSchema) : Prop where
  inRange : ∀ member ∈ schema.members, Tag.inRange member.number = true
  nodup : (schema.members.map (·.number)).Nodup
  isPlain : ∀ member ∈ schema.members, member.type.isPlain = true

/-! ## One oneof -/

section Members

variable {catalog : Catalog} {pass : Pass} {schema : OneofSchema} {place : Nat} {member : Member}
  {value : Value}

/-- Under a tag of no member nothing is read. -/
theorem OneofSchema.read_other {tag : UInt32}
    (hother : ∀ member ∈ schema.members, tag ≠ member.tag) (body : String → ReaderM Message) :
    schema.read body tag = pure none := by
  have hnone : schema.memberFor? tag = none := by
    refine List.findIdx?_eq_none_iff.mpr fun member hmember => ?_
    exact beq_eq_false_iff_ne.mpr (hother member hmember).symm
  rw [read, hnone]

/-- Under the tag of a member the value of the member is read. -/
theorem OneofSchema.Declarable.read_member (hschema : schema.Declarable)
    (hmember : schema.members[place]? = some member) (body : String → ReaderM Message) :
    schema.read body member.tag =
      member.type.read body >>= fun value => pure (some (place, value)) := by
  have hfound := OneofSchema.memberFor_tag hschema.inRange hschema.nodup hmember
  rw [OneofSchema.read, hfound]
  dsimp only
  rw [hmember]

variable (hnumbered : catalog.Numbered) (hoptions : catalog.OptionsSingular)
  (hschema : schema.Declarable) (hmember : schema.members[place]? = some member)

include hnumbered hoptions hschema hmember

theorem size_chosen (hvalue : value.Conforms catalog (Message.Countable catalog pass) member.type)
    (name : String) (required : Bool) (dialect : Dialect) :
    (Content.chosen place value).size catalog pass dialect (.oneof name schema required) =
      ((Content.chosen place value).write catalog pass dialect
        (.oneof name schema required)).length := by
  have hnumber := hschema.inRange member (List.mem_of_getElem? hmember)
  simp only [Content.size, Content.write, hmember]
  rw [List.length_append, Tag.length_encodeKey hnumber, hvalue.length_write hnumbered hoptions]

/-- A oneof is read back from its record, wherever the record stands. -/
theorem takes_chosen (hdefaulted : catalog.Defaulted)
    (hvalue : value.Conforms catalog (Message.Sendable catalog pass) member.type)
    {written rest : Bytes} (hwritten : written =
      Tag.encodeKey member.number member.type.wireType ++ value.write catalog pass member.type)
    (hlength : written.length < addressSpace) {levels : Nat} {reader : Reader}
    (hsound : Sound levels reader) (hdepth : value.depth catalog member.type ≤ levels)
    (hwindow : reader.window = written ++ rest) :
    Takes member.tag (schema.read catalog.readBody member.tag)
      (some (place, value.rebuild catalog .received member.type)) written.length reader := by
  have hmem := List.mem_of_getElem? hmember
  have hpresent := hvalue.isPresent_of_isPlain (hschema.isPlain member hmem)
  have htakes := takes_value hnumbered hoptions hdefaulted hvalue hpresent
    (hschema.inRange member hmem) hwritten hlength hsound hdepth hwindow
  rw [hschema.read_member hmember]
  exact htakes.map fun value => some (place, value)

end Members

/-! ## All oneofs of a message -/

/-- Tries the oneofs of a message one after the other, each with its own slot. The first that has a
member under the tag reads it, and those behind it are not tried. -/
def tryOneofs (body : String → ReaderM Message) (tag : UInt32) :
    List Entry → List (Option Content) → ReaderM (Option (List (Option Content)))
  | .oneof _ schema _ :: entries, slot :: slots => do
      match ← schema.read body tag with
      | some (place, value) => return some (some (.chosen place value) :: slots)
      | none => return (← tryOneofs body tag entries slots).map (slot :: ·)
  | _ :: entries, slot :: slots => return (← tryOneofs body tag entries slots).map (slot :: ·)
  | _, _ => return none

section Attempts

variable {body : String → ReaderM Message} {tag : UInt32}

/-- The oneof that reads a record is the first that takes its tag; those before it have no effect. -/
theorem tryOneofs_eq (catalog : Catalog) {entries : List Entry} {slots : List (Option Content)}
    (hlength : slots.length = entries.length) :
    tryOneofs body tag entries slots =
      match entries.findIdx? (fun entry => !entry.isField && entry.accepts tag) with
      | none => pure none
      | some place =>
          match entries[place]? with
          | none => pure none
          | some entry => do
              let slot ← entry.readRecord catalog body tag (slots[place]?.getD none)
              return some (slots.set place slot) := by
  induction entries generalizing slots with
  | nil =>
      rw [tryOneofs]
      · rfl
      all_goals exact nofun
  | cons entry entries ih =>
      obtain ⟨slot, slots, rfl⟩ := List.exists_cons_of_length_eq_add_one hlength
      have hrest := ih (Nat.succ.inj hlength)
      rw [List.findIdx?_cons]
      by_cases htakes : (!entry.isField && entry.accepts tag) = true
      case pos =>
        rw [if_pos htakes]
        cases entry with
        | singular | repeated | map => cases htakes
        | oneof name schema required =>
            obtain ⟨place, hplace⟩ := Option.isSome_iff_exists.mp htakes
            obtain ⟨hlt, -⟩ := List.findIdx?_eq_some_iff_getElem.mp hplace
            have hmember := List.getElem?_eq_getElem hlt
            simp only [tryOneofs, Entry.readRecord, OneofSchema.read, hplace, hmember, bind_assoc,
              pure_bind, List.getElem?_cons_zero, List.set_cons_zero]
      case neg =>
        have hskip : tryOneofs body tag (entry :: entries) (slot :: slots) =
            tryOneofs body tag entries slots >>= fun slots => pure (slots.map (slot :: ·)) := by
          cases entry with
          | singular | repeated | map => rfl
          | oneof name schema required =>
              have hnone : schema.memberFor? tag = none := by
                simpa [Entry.isField, Entry.accepts] using htakes
              simp only [tryOneofs, OneofSchema.read, hnone, pure_bind]
        rw [hskip, hrest, if_neg htakes]
        cases entries.findIdx? (fun entry => !entry.isField && entry.accepts tag) with
        | none => rfl
        | some place =>
            simp only [Option.map_some, List.getElem?_cons_succ, List.set_cons_succ]
            cases entries[place]? with
            | none => rfl
            | some other => simp only [bind_assoc, pure_bind, Option.map_some]

/-- A record that no field takes goes to the first oneof that reads it when all are tried in turn, or
else to the captured records. -/
theorem MessageSchema.readRecord_tryOneofs {catalog : Catalog} {schema : MessageSchema}
    {gathered : Gathered}
    (hfields : ∀ entry ∈ schema.entries, entry.isField = true → entry.accepts tag = false)
    (hlength : gathered.slots.length = schema.entries.length) :
    schema.readRecord catalog body tag gathered = (do
      match ← tryOneofs body tag schema.entries gathered.slots with
      | some slots => return { gathered with slots }
      | none =>
          if schema.keepsUnknown then
            return { gathered with unknown := gathered.unknown.add (← readUnknown tag) }
          else
            skipField tag
            return gathered) := by
  have hnone : schema.entries.findIdx? (fun entry => entry.isField && entry.accepts tag) = none := by
    refine List.findIdx?_eq_none_iff.mpr fun entry hentry => ?_
    cases hfield : entry.isField with
    | false => rfl
    | true => exact hfields entry hentry hfield
  rw [readRecord, entryFor?, hnone, tryOneofs_eq catalog hlength]
  dsimp only
  cases hfound : schema.entries.findIdx? fun entry => !entry.isField && entry.accepts tag with
  | none => rfl
  | some place =>
      obtain ⟨hlt, -⟩ := List.findIdx?_eq_some_iff_getElem.mp hfound
      simp only [List.getElem?_eq_getElem hlt, bind_assoc, pure_bind]

end Attempts

/-- What a oneof holds after some records: the member that the last record under one of its tags
sets, if there is one. -/
def OneofSchema.held? (body : String → Bytes → Option Message) (schema : OneofSchema)
    (records : List UnknownField) : Option Content :=
  match (records.filter fun record => (schema.memberFor? record.tag).isSome).getLast? with
  | some record => (schema.choice? body record).map fun choice => .chosen choice.1 choice.2
  | none => some .unset

/-- The content of a oneof is what the last of its own records sets. -/
theorem OneofSchema.held_of_assemble {catalog : Catalog} {body : String → Bytes → Option Message}
    {name : String} {schema : OneofSchema} {required : Bool} {records : List UnknownField}
    {content : Content} (hassemble : (Entry.oneof name schema required).assemble? catalog body
      ((Entry.oneof name schema required).own records) = some content) :
    schema.held? body records = some content := by
  simp only [Entry.assemble?, Option.bind_eq_bind, Option.bind_eq_some_iff] at hassemble
  obtain ⟨choices, hchoices, hmade⟩ := hassemble
  rw [getLast_of_mapM hchoices] at hmade
  change (match ((Entry.oneof name schema required).own records).getLast? with
    | some record => (schema.choice? body record).map fun choice =>
        Content.chosen choice.1 choice.2
    | none => some .unset) = some content
  cases hlast : ((Entry.oneof name schema required).own records).getLast? with
  | none =>
      rw [hlast] at hmade
      cases required with
      | true => cases hmade
      | false => exact hmade
  | some record =>
      -- All own records were read, so the last one was.
      obtain ⟨hlength, hpairs⟩ := zip_of_mapM hchoices
      obtain ⟨choice, hpair⟩ := exists_mem_zip hlength (List.mem_of_getLast? hlast)
      have hchoice : schema.choice? body record = some choice := hpairs (record, choice) hpair
      rw [hlast, Option.bind_some, hchoice] at hmade
      change Option.map _ (schema.choice? body record) = some content
      rw [hchoice]
      exact hmade

namespace Catalog

/-- In a message that is decoded, every oneof holds the member set last among the records of its own,
whatever records of other oneofs and fields come between them. -/
theorem decode_held {catalog : Catalog} (hnumbered : catalog.Numbered) {name : String}
    {bytes : Bytes} {config : ReaderConfig} {message : Message}
    (hdecode : catalog.decode name bytes config = .ok message) :
    ∃ records, SplitsInto bytes records ∧
      (catalog.schema name).entries.length = message.contents.length ∧
      ∀ (oneof : String) (schema : OneofSchema) (required : Bool) (content : Content),
        (Entry.oneof oneof schema required, content) ∈
            (catalog.schema name).entries.zip message.contents →
          schema.held? (catalog.nested? config.recursionLimit) records = some content := by
  rw [decode_eq_ok_iff hnumbered, message_eq, Option.bind_eq_some_iff] at hdecode
  obtain ⟨records, hsplit, hassemble⟩ := hdecode
  obtain ⟨contents, hcontents, hmade⟩ := Option.bind_eq_some_iff.mp hassemble
  cases hmade
  obtain ⟨hlength, hpairs⟩ := zip_of_mapM hcontents
  refine ⟨records, splitsInto_iff.mpr hsplit, hlength, fun oneof schema required content hpair => ?_⟩
  exact OneofSchema.held_of_assemble (hpairs _ hpair)

/-- Oneofs with distinct numbers and without options are written and read back. The bytes are as many
as predicted, also for a default; they begin with the key of the member; and wherever they stand,
the tag and the oneof are read from them to their end. Under any other tag nothing is read and the
reader stays as it is. In a message every oneof holds the member set last among its own records. -/
theorem oneof_read_back {catalog : Catalog} (hnumbered : catalog.Numbered)
    (hoptions : catalog.OptionsSingular) (hdefaulted : catalog.Defaulted) (pass : Pass) :
    (∀ schema : OneofSchema, schema.Declarable → ∀ place member value,
      schema.members[place]? = some member →
      value.Conforms catalog (Message.Sendable catalog pass) member.type →
      ∀ (name : String) (required : Bool) (dialect : Dialect),
        let entry := Entry.oneof name schema required
        let written := (Content.chosen place value).write catalog pass dialect entry
        (Content.chosen place value).size catalog pass dialect entry = written.length ∧
          Tag.encodeKey member.number member.type.wireType <+: written ∧
          (written.length < addressSpace → ∀ levels reader rest, Sound levels reader →
            value.depth catalog member.type ≤ levels → reader.window = written ++ rest →
              Takes (Tag.make member.number member.type.wireType)
                (schema.read catalog.readBody (Tag.make member.number member.type.wireType))
                (some (place, value.rebuild catalog .received member.type)) written.length
                reader)) ∧
      (∀ (schema : OneofSchema) (tag : UInt32) (reader : Reader),
        (∀ member ∈ schema.members, tag ≠ Tag.make member.number member.type.wireType) →
          schema.read catalog.readBody tag reader = .ok none reader) ∧
      ∀ name bytes config message, catalog.decode name bytes config = .ok message →
        ∃ records, SplitsInto bytes records ∧
          (catalog.schema name).entries.length = message.contents.length ∧
          ∀ (oneof : String) (schema : OneofSchema) (required : Bool) (content : Content),
            (Entry.oneof oneof schema required, content) ∈
                (catalog.schema name).entries.zip message.contents →
              schema.held? (catalog.nested? config.recursionLimit) records = some content := by
  refine ⟨?_, ?_, fun name bytes config message => decode_held hnumbered⟩
  · intro schema hschema place member value hmember hvalue name required dialect entry written
    have hwritten : written = Tag.encodeKey member.number member.type.wireType ++
        value.write catalog pass member.type := by
      simp only [written, entry, Content.write, hmember]
    refine ⟨size_chosen hnumbered hoptions hschema hmember hvalue.countable name required dialect,
      ?_, ?_⟩
    · rw [hwritten]
      exact List.prefix_append _ _
    · intro hlength levels reader rest hsound hdepth hwindow
      exact takes_chosen hnumbered hoptions hschema hmember hdefaulted hvalue hwritten hlength hsound
        hdepth hwindow
  · intro schema tag reader hother
    rw [OneofSchema.read_other hother]
    rfl

/-- A negative zero is written and read back as a float. Two oneofs of a message are set in turn, one
of them twice. -/
theorem scalars_read_back :
    let messages : Catalog := ⟨[("MultiOneof", Samples.multiOneof), ("Header", Samples.header),
      ("Inner", Samples.inner)]⟩
    let zero : Value := .scalar (.float 2147483648)
    let written := (Content.chosen 1 zero).write messages none .proto3
      (.oneof "any" Samples.anyScalar false)
    let bytes : Bytes := [240, 1, 9, 8, 5] ++ (written ++ [8, 6, 248, 1, 9])
    let nested := messages.nested? 100
    written = [173, 1, 0, 0, 0, 128] ∧
      Takes 173 (Samples.anyScalar.read messages.readBody 173) (some (1, zero)) 6
        (.ofBytes (written ++ [8, 6]) {}) ∧
      Samples.anyScalar.read messages.readBody 168 (.ofBytes written {}) =
        .ok none (.ofBytes written {}) ∧
      ∃ records, SplitsInto bytes records ∧
        Samples.anyScalar.held? nested records = some (.chosen 1 zero) ∧
        Samples.payload.held? nested records = some (.chosen 0 (.scalar (.uint64 6))) := by
  intro messages zero written bytes nested
  have hnumbered : messages.Numbered := by decide
  have hwritten : written = [173, 1, 0, 0, 0, 128] := by cbv
  have hdecode : messages.decode "MultiOneof" bytes {} = .ok (.mk
      [.singular (.scalar (.uint32 9)), .chosen 1 zero, .singular (.scalar (.string "")),
        .chosen 0 (.scalar (.uint64 6)), .singular (.scalar (.uint32 9))] .empty .empty) := by
    have hsplits : SplitsInto bytes [⟨30, .varint 9⟩, ⟨1, .varint 5⟩, ⟨21, .fixed32 2147483648⟩,
        ⟨1, .varint 6⟩, ⟨31, .varint 9⟩] := splitsInto_iff.mpr (by decide)
    rw [decode_eq_ok_iff hnumbered, message_eq, splitsInto_iff.mp hsplits]
    rfl
  obtain ⟨hchosen, hother, hheld⟩ := oneof_read_back hnumbered (by decide) (by decide) none
  obtain ⟨-, -, hread⟩ := hchosen Samples.anyScalar ⟨by decide, by decide, by decide⟩ 1
    ⟨"Float", 21, .scalar .float⟩ zero rfl (.scalar _ _ rfl) "any" false .proto3
  obtain ⟨records, hsplits, -, hslots⟩ := hheld "MultiOneof" bytes {} _ hdecode
  have hlength : written.length < addressSpace := by rw [hwritten]; decide
  refine ⟨hwritten, ?_, hother _ 168 _ (by decide), records, hsplits, ?_, ?_⟩
  · exact hread hlength 100 _ [8, 6] (sound_ofBytes _ {}) (by decide) (window_ofBytes _ {})
  · exact hslots "any" Samples.anyScalar false _ (List.mem_iff_getElem?.mpr ⟨1, rfl⟩)
  · exact hslots "action" Samples.payload true _ (List.mem_iff_getElem?.mpr ⟨3, rfl⟩)

end Catalog

end ProtoWire
