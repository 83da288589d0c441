import ProtoWire.Proofs.AsWritten
import ProtoWire.Proofs.Balanced
import ProtoWire.Proofs.Decoded

/-! # Captured records as they are reproduced

A message type that keeps undeclared records writes them behind its entries, in the order in which
they came. They come out as they went in, byte for byte, exactly if they were written as the encoder
writes them. Where no entry has anything to write they are all that is written.
-/

namespace ProtoWire

/-! ## Defaults that are not written -/

/-- The message type whose default is inside that of a value type, if there is one. -/
def ValueType.defaultsTo? : ValueType → Option String
  | .scalar _ | .enumeration _ | .option _ => none
  | .message name => some name
  | .converted _ wire => wire.defaultsTo?

/-- The message type whose default is inside that of an entry, if there is one. -/
def Entry.defaultsTo? : Entry → Option String
  | .singular _ _ type _ _ => type.defaultsTo?
  | .repeated .. | .map .. | .oneof .. => none

/-- No entry has to be present in a message type, nor in any whose default is inside its own. -/
inductive Catalog.NothingRequired (catalog : Catalog) : String → Prop where
  | mk (name : String)
      (hentries : ∀ entry ∈ (catalog.schema name).entries, entry.isRequired = false)
      (hdefaults : ∀ entry ∈ (catalog.schema name).entries, ∀ inner,
        entry.defaultsTo? = some inner → NothingRequired catalog inner) :
      NothingRequired catalog name

/-- Neither an entry nor anything inside its default has to be present. -/
def Entry.NothingRequired (catalog : Catalog) (entry : Entry) : Prop :=
  entry.isRequired = false ∧
    ∀ inner, entry.defaultsTo? = some inner → catalog.NothingRequired inner

theorem Catalog.nothingRequired_iff {catalog : Catalog} {name : String} :
    catalog.NothingRequired name ↔
      ∀ entry ∈ (catalog.schema name).entries, entry.NothingRequired catalog := by
  constructor
  · rintro ⟨_, hentries, hdefaults⟩
    exact fun entry hentry => ⟨hentries entry hentry, hdefaults entry hentry⟩
  · intro hentries
    exact .mk name (fun entry hentry => (hentries entry hentry).1)
      fun entry hentry => (hentries entry hentry).2

theorem Entry.nothingRequired_of_none {catalog : Catalog} {entry : Entry}
    (hrequired : entry.isRequired = false) (hdefaults : entry.defaultsTo? = none) :
    entry.NothingRequired catalog := by
  refine ⟨hrequired, fun inner hinner => ?_⟩
  rw [hdefaults] at hinner
  cases hinner

theorem ScalarType.isDefault_zero (type : ScalarType) : type.zero.isDefault = true := by
  cases type <;> rfl

section Defaults

variable {catalog : Catalog} {pass : Pass} {message : String → Option Message}
  (hmessage : ∀ name found, message name = some found →
    ((found.settle catalog pass (catalog.schema name)).bodySize catalog pass
      (catalog.schema name) = 0 ↔ catalog.NothingRequired name))
include hmessage

theorem isDefault_typeDefault_iff {type : ValueType} {default : Value}
    (hdefault : type.default? message = some default) :
    (default.settle catalog pass type).isDefault catalog pass type = true ↔
      ∀ inner, type.defaultsTo? = some inner → catalog.NothingRequired inner := by
  induction type generalizing default with
  | scalar type =>
      cases hdefault
      exact iff_of_true type.isDefault_zero nofun
  | enumeration schema =>
      cases hdefault
      exact iff_of_true (beq_iff_eq.mpr (schema.number_ofNumber 0)) nofun
  | message name =>
      obtain ⟨found, hfound, rfl⟩ := Option.map_eq_some_iff.mp hdefault
      refine beq_iff_eq.trans ((hmessage name found hfound).trans ?_)
      constructor
      · intro hname inner hinner
        cases hinner
        exact hname
      · exact fun hinner => hinner name rfl
  | option inner ih =>
      cases hdefault
      exact iff_of_true rfl nofun
  | converted converter wire ih =>
      obtain ⟨inner, hinner, rfl⟩ := Option.map_eq_some_iff.mp hdefault
      exact ih hinner

/-- Of the default of an entry nothing is counted or written exactly if nothing is required. -/
theorem nothing_entryDefault_iff {entry : Entry} {default : Content}
    (hdefault : entry.default? message = some default) (dialect : Dialect) :
    ((default.settle catalog pass entry).size catalog pass dialect entry = 0 ↔
        entry.NothingRequired catalog) ∧
      ((default.settle catalog pass entry).write catalog pass dialect entry = [] ↔
        entry.NothingRequired catalog) := by
  cases entry with
  | singular name number type optional nonNull =>
      obtain ⟨value, hvalue, rfl⟩ := Option.map_eq_some_iff.mp hdefault
      have hleft : (nonNull || !(value.settle catalog pass type).isDefault catalog pass type) =
          false ↔ (Entry.singular name number type optional nonNull).NothingRequired catalog := by
        rw [Bool.or_eq_false_iff, Bool.not_eq_false',
          isDefault_typeDefault_iff hmessage hvalue]
        rfl
      rw [← hleft, Content.settle, Content.size, Content.write]
      cases nonNull || !(value.settle catalog pass type).isDefault catalog pass type with
      | true =>
          -- The key alone takes up room.
          have hkey : 0 < Tag.keySize number := Varint.size_pos _
          have hsize := Nat.add_pos_left hkey
            ((value.settle catalog pass type).size catalog pass type)
          have hwrite := List.append_ne_nil_of_left_ne_nil
            (Tag.encodeKey_ne_nil number type.wireType)
            ((value.settle catalog pass type).write catalog pass type)
          exact ⟨iff_of_false hsize.ne' Bool.false_ne_true.symm,
            iff_of_false hwrite Bool.false_ne_true.symm⟩
      | false => exact ⟨iff_of_true rfl rfl, iff_of_true rfl rfl⟩
  | repeated | map =>
      cases hdefault
      exact ⟨iff_of_true rfl (Entry.nothingRequired_of_none rfl rfl),
        iff_of_true rfl (Entry.nothingRequired_of_none rfl rfl)⟩
  | oneof name schema required =>
      cases required with
      | true => cases hdefault
      | false =>
          cases hdefault
          exact ⟨iff_of_true rfl (Entry.nothingRequired_of_none rfl rfl),
            iff_of_true rfl (Entry.nothingRequired_of_none rfl rfl)⟩

/-- Of the defaults of entries nothing is counted or written exactly if nothing is required. -/
theorem nothing_entryDefaults_iff {entries : List Entry} {contents : List Content}
    (hcontents : entries.mapM (·.default? message) = some contents) (dialect : Dialect) :
    (contentsSize catalog pass dialect entries (settleContents catalog pass entries contents) =
        0 ↔ ∀ entry ∈ entries, entry.NothingRequired catalog) ∧
      (writeContents catalog pass dialect entries (settleContents catalog pass entries contents) =
        [] ↔ ∀ entry ∈ entries, entry.NothingRequired catalog) := by
  induction entries generalizing contents with
  | nil =>
      cases hcontents
      exact ⟨iff_of_true rfl nofun, iff_of_true rfl nofun⟩
  | cons entry entries ih =>
      simp only [List.mapM_cons, Option.bind_eq_bind, Option.bind_eq_some_iff] at hcontents
      obtain ⟨first, hfirst, others, hothers, hmade⟩ := hcontents
      cases hmade
      obtain ⟨hsize, hwrite⟩ := nothing_entryDefault_iff hmessage hfirst dialect
      obtain ⟨hsizes, hwrites⟩ := ih hothers
      rw [settleContents, contentsSize, writeContents, Nat.add_eq_zero_iff,
        List.append_eq_nil_iff, hsize, hsizes, hwrite, hwrites, List.forall_mem_cons]
      exact ⟨Iff.rfl, Iff.rfl⟩

end Defaults

section Settling

variable {catalog : Catalog} {pass : Pass}

theorem settle_empty (schema : MessageSchema) (contents : List Content)
    (unknown : UnknownFieldSet) :
    (Message.mk contents unknown .empty).settle catalog pass schema =
      .mk (settleContents catalog pass schema.entries contents) unknown
        (if schema.cachesSize then
          SizeCache.empty.remember pass (contentsSize catalog pass schema.dialect schema.entries
            (settleContents catalog pass schema.entries contents) + unknown.size)
        else .empty) := by
  rw [Message.settle]
  cases schema.cachesSize <;> cases pass <;> rfl

/-- A size that was just worked out is that of the contents and captured records. -/
theorem bodySize_settle_empty (schema : MessageSchema) (contents : List Content)
    (unknown : UnknownFieldSet) :
    ((Message.mk contents unknown .empty).settle catalog pass schema).bodySize catalog pass schema =
      contentsSize catalog pass schema.dialect schema.entries
        (settleContents catalog pass schema.entries contents) + unknown.size := by
  rw [settle_empty]
  cases hcaches : schema.cachesSize with
  | false => exact bodySize_empty schema _ unknown
  | true =>
      rw [Message.bodySize, hcaches]
      cases pass with
      | none => rfl
      | some pass => simp only [SizeCache.remember, SizeCache.find?, if_true]

/-- The default of a message type has a size of zero exactly if nothing is required in it. -/
theorem bodySize_messageDefault_iff {levels : Nat} {name : String} {message : Message}
    (hdefault : catalog.defaultMessageWithin? levels name = some message) :
    (message.settle catalog pass (catalog.schema name)).bodySize catalog pass
      (catalog.schema name) = 0 ↔ catalog.NothingRequired name := by
  induction levels generalizing name message with
  | zero => cases hdefault
  | succ levels ih =>
      simp only [Catalog.defaultMessageWithin?, Option.bind_eq_bind, Option.bind_eq_some_iff]
        at hdefault
      obtain ⟨contents, hcontents, hmade⟩ := hdefault
      cases hmade
      rw [bodySize_settle_empty, catalog.nothingRequired_iff,
        ← (nothing_entryDefaults_iff (fun _ _ hfound => ih hfound) hcontents _).1]
      rfl

end Settling

namespace Catalog

variable {catalog : Catalog} {name : String}

/-- What is written of a message is its contents, then the records that it captured. -/
theorem encode_mk (name : String) (pass : Nat) (contents : List Content)
    (unknown : UnknownFieldSet) :
    (catalog.encode name pass (.mk contents unknown .empty)).answer =
      (catalog.encode name pass (.mk contents .empty .empty)).answer ++ unknown.encode := by
  rw [encode, encode, settle, settle, settle_empty, settle_empty]
  dsimp only [writeBody]
  rw [Message.writeBody, Message.writeBody, List.append_assoc]
  rfl

/-- Of the contents that a message has by default nothing is written exactly if nothing is
required. -/
theorem encode_defaults_iff (name : String) (pass : Nat) {contents : List Content}
    (hcontents : (catalog.schema name).entries.mapM (·.default? catalog.defaultMessage?) =
      some contents) :
    (catalog.encode name pass (.mk contents .empty .empty)).answer = [] ↔
      catalog.NothingRequired name := by
  rw [encode, settle, settle_empty]
  dsimp only [writeBody]
  rw [Message.writeBody, List.append_eq_nil_iff, nothingRequired_iff,
    (nothing_entryDefaults_iff (fun _ _ hfound => bodySize_messageDefault_iff hfound)
      hcontents _).2]
  exact and_iff_left rfl

end Catalog

/-! ## Records that no entry takes -/

theorem Entry.exists_default {catalog : Catalog} {entry : Entry}
    (hdefaulted : entry.defaulted catalog = true) (hrequired : entry.isRequired = false) :
    ∃ content, entry.default? catalog.defaultMessage? = some content := by
  cases entry with
  | singular name number type optional nonNull =>
      cases hrequired
      obtain ⟨value, hvalue⟩ := Option.isSome_iff_exists.mp hdefaulted
      exact ⟨.singular value, congrArg (Option.map Content.singular) hvalue⟩
  | repeated name number element packed => exact ⟨.repeated [], rfl⟩
  | map name number key value order => exact ⟨.mapping [], rfl⟩
  | oneof name schema required =>
      cases hrequired
      exact ⟨.unset, rfl⟩

/-- An entry that need not be present makes its default of no records. -/
theorem Entry.assemble_nil {catalog : Catalog} {entry : Entry} {content : Content}
    (hrequired : entry.isRequired = false)
    (hdefault : entry.default? catalog.defaultMessage? = some content)
    (body : String → Bytes → Option Message) :
    entry.assemble? catalog body [] = some content := by
  cases entry with
  | singular name number type optional nonNull =>
      cases hrequired
      obtain ⟨value, hvalue, rfl⟩ := Option.map_eq_some_iff.mp hdefault
      have htype : catalog.default? type = some value := hvalue
      rw [assemble?, htype]
      rfl
  | repeated | map =>
      cases hdefault
      rfl
  | oneof name schema required =>
      cases hrequired
      cases hdefault
      rfl

namespace MessageSchema

variable {catalog : Catalog} {schema : MessageSchema} {fields : List UnknownField}

theorem leftover_of_not_accepts (haccepts : ∀ field ∈ fields, ∀ entry ∈ schema.entries,
    entry.accepts field.tag = false) : schema.leftover fields = fields := by
  refine List.filter_eq_self.mpr fun field hfield => ?_
  rw [Bool.not_eq_true', List.any_eq_false]
  exact fun entry hentry => Bool.eq_false_iff.mp (haccepts field hfield entry hentry)

/-- Of records that no entry takes, a message with the default contents is made. -/
theorem assemble_of_not_accepts (hdefaulted : ∀ entry ∈ schema.entries,
    entry.defaulted catalog = true) (hentries : ∀ entry ∈ schema.entries, entry.isRequired = false)
    (hkeeps : schema.keepsUnknown = true) (haccepts : ∀ field ∈ fields,
      ∀ entry ∈ schema.entries, entry.accepts field.tag = false)
    (body : String → Bytes → Option Message) :
    ∃ contents, schema.entries.mapM (·.default? catalog.defaultMessage?) = some contents ∧
      schema.assemble? catalog body fields = some (.mk contents ⟨fields⟩ .empty) := by
  obtain ⟨contents, hcontents⟩ := exists_mapM fun entry hentry =>
    Entry.exists_default (hdefaulted entry hentry) (hentries entry hentry)
  obtain ⟨hlength, hpairs⟩ := zip_of_mapM hcontents
  have hread : ∀ pair ∈ schema.entries.zip contents,
      pair.1.assemble? catalog body (pair.1.own fields) = some pair.2 := by
    intro pair hpair
    have hentry := (List.of_mem_zip hpair).1
    rw [Entry.own_of_not_accepts fun field hfield => haccepts field hfield pair.1 hentry]
    exact pair.1.assemble_nil (hentries pair.1 hentry) (hpairs pair hpair) body
  refine ⟨contents, hcontents, ?_⟩
  rw [assemble?, mapM_eq_map_zip hlength hread, List.map_snd_zip hlength.ge, hkeeps,
    leftover_of_not_accepts haccepts]
  rfl

end MessageSchema

namespace Catalog

/-- Let a message type keep undeclared records, and let bytes split into records. If no entry has to
be present and none takes any of the records, then the bytes decode; and the message is encoded in
the records alone exactly if nothing is required inside the defaults of entries either. It is then
encoded in no more bytes than they came in, and in the same bytes exactly if every tag, every word
and every length in them is written as the encoder writes it. Among other records, those that no
entry takes are written in the same way behind the contents. -/
theorem captured_reproduced {catalog : Catalog} (hnumbered : catalog.Numbered)
    (hdefaulted : catalog.Defaulted) {name : String}
    (hkeeps : (catalog.schema name).keepsUnknown = true) {bytes : Bytes}
    {fields : List UnknownField} (hsplits : SplitsInto bytes fields) (config : ReaderConfig)
    (pass : Nat) :
    ((∀ entry ∈ (catalog.schema name).entries, entry.isRequired = false) →
      (∀ field ∈ fields, ∀ entry ∈ (catalog.schema name).entries,
        entry.accepts field.tag = false) →
      ∃ (message : Message) (records : List WrittenRecord),
        catalog.decode name bytes config = .ok message ∧
        bytes = records.flatMap (·.bytes) ∧ fields = records.map (·.field) ∧
        ((catalog.encode name pass message).answer = UnknownField.encodeAll fields ↔
          catalog.NothingRequired name) ∧
        (catalog.NothingRequired name →
          (catalog.encode name pass message).answer.length ≤ bytes.length ∧
          ((catalog.encode name pass message).answer = bytes ↔
            ∀ record ∈ records, ∀ varint ∈ record.varints, varint.IsCanonical))) ∧
    ∀ message, catalog.decode name bytes config = .ok message →
      (catalog.encode name pass message).answer =
        (catalog.encode name pass (.mk message.contents .empty .empty)).answer ++
          UnknownField.encodeAll ((catalog.schema name).leftover fields) := by
  have hsplit := splitsInto_iff.mp hsplits
  refine ⟨fun hentries haccepts => ?_, fun message hdecode => ?_⟩
  · obtain ⟨contents, hcontents, hassemble⟩ := MessageSchema.assemble_of_not_accepts
      (hdefaulted.schema name) hentries hkeeps haccepts (catalog.nested? config.recursionLimit)
    have hdecode : catalog.decode name bytes config = .ok (.mk contents ⟨fields⟩ .empty) := by
      rw [decode_eq_ok_iff hnumbered, message_eq, hsplit]
      exact hassemble
    obtain ⟨records, rfl, rfl⟩ := hsplits.exists_written
    have hdefaults := encode_defaults_iff name pass hcontents
    refine ⟨_, records, hdecode, rfl, rfl, ?_, fun hfree => ?_⟩
    · rw [encode_mk, ← hdefaults]
      exact List.append_left_eq_self
    · rw [encode_mk, hdefaults.mpr hfree, List.nil_append]
      exact ⟨WrittenRecord.length_flatMap_encode_le records,
        WrittenRecord.flatMap_encode_eq_bytes_iff records⟩
  · rw [decode_eq_ok_iff hnumbered, message_eq, hsplit, Option.bind_some] at hdecode
    obtain ⟨contents, _, hmade⟩ := Option.bind_eq_some_iff.mp hdecode
    cases hmade
    rw [encode_mk, hkeeps]
    rfl

/-- A tag and a word in more bytes than they need come back in fewer, and a header that nothing was
read of is not written. -/
theorem overlong_reproduced_shorter :
    let numbers : Catalog := ⟨[("Numbers", Samples.numbers), ("Header", Samples.header)]⟩
    let number (value : UInt32) : Content := .singular (.scalar (.uint32 value))
    let text : Content := .singular (.scalar (.string ""))
    let header : Content := .singular (.message (.mk [number 0, text] .empty .empty))
    let message (first : UInt32) (unknown : List UnknownField) : Message :=
      .mk [number 0, number 0, text, .repeated [], .repeated [], .singular (.scalar (.fixed32 0)),
        .singular (.scalar (.fixed64 0)), header, .singular .absent,
        .singular (.scalar (.sint32 0)), .mapping [], number first] ⟨unknown⟩ .empty
    numbers.NothingRequired "Numbers" ∧
      (∃ captured, numbers.decode "Numbers" [144, 0, 135, 0, 26, 1, 65] {} = .ok captured ∧
        (numbers.encode "Numbers" 1 captured).answer = [16, 7, 26, 1, 65]) ∧
      numbers.decode "Numbers" [8, 5, 144, 0, 135, 0] {} = .ok (message 5 [⟨2, .varint 7⟩]) ∧
      (numbers.encode "Numbers" 1 (message 5 [⟨2, .varint 7⟩])).answer = [8, 5] ++ [16, 7] := by
  intro numbers number text header message
  have hnumbered : numbers.Numbered := by decide
  have hdefaulted : numbers.Defaulted := by decide
  have hheader : numbers.NothingRequired "Header" := by
    refine nothingRequired_iff.mpr fun entry hentry => ?_
    have hnone : ∀ entry ∈ Samples.header.entries,
        entry.isRequired = false ∧ entry.defaultsTo? = none := by decide
    exact Entry.nothingRequired_of_none (hnone entry hentry).1 (hnone entry hentry).2
  have hfree : numbers.NothingRequired "Numbers" := by
    refine .mk "Numbers" (by decide) fun entry hentry inner hinner => ?_
    have hheaders : ∀ entry ∈ Samples.numbers.entries,
        entry.defaultsTo? = none ∨ entry.defaultsTo? = some "Header" := by decide
    rcases hheaders entry hentry with hnone | hsome
    · rw [hnone] at hinner
      cases hinner
    · rw [hsome] at hinner
      cases hinner
      exact hheader
  have hcaptured : SplitsInto [144, 0, 135, 0, 26, 1, 65]
      [⟨2, .varint 7⟩, ⟨3, .lengthDelimited [65]⟩] := splitsInto_iff.mpr (by decide)
  have hmixed : SplitsInto [8, 5, 144, 0, 135, 0] [⟨1, .varint 5⟩, ⟨2, .varint 7⟩] :=
    splitsInto_iff.mpr (by decide)
  have hdecode : numbers.decode "Numbers" [8, 5, 144, 0, 135, 0] {} =
      .ok (message 5 [⟨2, .varint 7⟩]) := by
    cbv
  refine ⟨hfree, ?_, hdecode, ?_⟩
  · obtain ⟨captured, _, hcapture, _, _, hencode, _⟩ :=
      (@captured_reproduced numbers hnumbered hdefaulted "Numbers" rfl _ _ hcaptured {} 1).1
        (by decide) (by decide)
    exact ⟨captured, hcapture, hencode.mpr hfree⟩
  · rw [(@captured_reproduced numbers hnumbered hdefaulted "Numbers" rfl _ _ hmixed {} 1).2 _
      hdecode]
    rfl

/-- A field that is always written is written inside a default as well, in front of the record that
was captured. -/
theorem required_inside_default_written :
    let outer : MessageSchema := {
      name := "Outer"
      entries := [Samples.field "inner" 1 (.message "Inner")]
      unknownField := some "others" }
    let inner : MessageSchema := {
      name := "Inner"
      entries := [Samples.nonNull "x" 1 (.scalar .int32)] }
    let messages : Catalog := ⟨[("Outer", outer), ("Inner", inner)]⟩
    let record : UnknownField := ⟨5, .varint 1⟩
    let message : Message :=
      .mk [.singular (.message (.mk [.singular (.scalar (.int32 0))] .empty .empty))] ⟨[record]⟩
        .empty
    messages.Numbered ∧ messages.Defaulted ∧ outer.keepsUnknown = true ∧
      (∀ entry ∈ outer.entries, entry.isRequired = false) ∧
      SplitsInto [40, 1] [record] ∧
      (∀ entry ∈ outer.entries, entry.accepts record.tag = false) ∧
      messages.decode "Outer" [40, 1] {} = .ok message ∧
      (messages.encode "Outer" 1 message).answer = [10, 2, 8, 0, 40, 1] ∧
      UnknownField.encodeAll [record] ≠ [10, 2, 8, 0, 40, 1] := by
  intro outer inner messages record message
  refine ⟨by decide, by decide, rfl, by decide, splitsInto_iff.mpr (by decide), by decide, ?_, ?_,
    by decide⟩
  · cbv
  · cbv

end Catalog

end ProtoWire
