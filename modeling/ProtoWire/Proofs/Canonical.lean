import ProtoWire.Proofs.Depth
import ProtoWire.Proofs.Rearranged

/-! # Canonical encodings

Whatever bytes a message was decoded from, its encoding is a canonical form of them: decoding it
gives the message with positive zeros, and encoding that gives the same bytes. The only way to fail
is a message default that was filled in and is written deeper than messages may nest.
-/

namespace ProtoWire.Catalog

variable {catalog : Catalog}

theorem encode_fresh (hnumbered : catalog.Numbered) (hoptions : catalog.OptionsSingular)
    {name : String} {message : Message}
    (hmessage : message.Conforms catalog Message.Fresh (catalog.schema name)) (pass : Nat) :
    (catalog.encode name pass message).answer = message.body catalog (catalog.schema name) := by
  have hunused : message.CachesUnused catalog (some pass) (catalog.schema name) := by
    refine hmessage.mono fun schema message hfresh => ?_
    rw [hfresh.cache_eq]
    rfl
  exact hunused.encode_eq hnumbered hoptions
    (hmessage.mono fun _ _ hfresh => hfresh.unknownApart.numbered)

/-- A decoded message, its maps without an order in any order, is encoded as bytes that decode
exactly if messages may nest as deep as those written in it. They decode as the message with
positive zeros, captured records included, and its encoding, the maps in the same order, is the same
bytes. -/
theorem decode_canonical (hnumbered : catalog.Numbered) (hoptions : catalog.OptionsSingular)
    (hdefaulted : catalog.Defaulted) (hkeyed : catalog.Keyed) {name : String} {bytes : Bytes}
    {config : ReaderConfig} {message : Message}
    (hdecode : catalog.decode name bytes config = .ok message) :
    message.Conforms catalog Message.Fresh (catalog.schema name) ∧
      ∀ arranged : Message, arranged.Conforms catalog Message.Fresh (catalog.schema name) →
        arranged.sorted catalog (catalog.schema name) =
          message.sorted catalog (catalog.schema name) →
        ∀ pass, (catalog.encode name pass arranged).answer.length < addressSpace →
          ((∃ again, catalog.decode name (catalog.encode name pass arranged).answer config =
              .ok again) ↔
            arranged.depth catalog (catalog.schema name) ≤ config.recursionLimit) ∧
          ∀ again, catalog.decode name (catalog.encode name pass arranged).answer config =
              .ok again →
            again = message.positiveZeros catalog (catalog.schema name) ∧
              again.unknown = message.unknown ∧
              (arranged.positiveZeros catalog (catalog.schema name)).sorted catalog
                  (catalog.schema name) = again.sorted catalog (catalog.schema name) ∧
              ∀ pass', (catalog.encode name pass'
                  (arranged.positiveZeros catalog (catalog.schema name))).answer =
                (catalog.encode name pass arranged).answer := by
  have hdecoded := decoded_of_decode hnumbered hdefaulted hkeyed hdecode
  refine ⟨hdecoded.conforms, fun arranged harranged hsorted pass hlength => ?_⟩
  have hencode := encode_fresh hnumbered hoptions harranged pass
  rw [hencode] at hlength ⊢
  have hreceived := hdecoded.asReceived_arranged hkeyed harranged hsorted
  have hagain : ∀ again, catalog.decode name (arranged.body catalog (catalog.schema name)) config =
      .ok again ↔ arranged.depth catalog (catalog.schema name) ≤ config.recursionLimit ∧
        again = message.positiveZeros catalog (catalog.schema name) := by
    intro again
    have hapart := harranged.mono fun _ _ hfresh => hfresh.unknownApart
    rw [decode_eq_ok_iff hnumbered, hapart.message_iff hnumbered hoptions hdefaulted hlength,
      hreceived]
  constructor
  · constructor
    · rintro ⟨again, hread⟩
      exact ((hagain again).mp hread).1
    · intro hdepth
      exact ⟨_, (hagain _).mpr ⟨hdepth, rfl⟩⟩
  · intro again hread
    obtain ⟨_, rfl⟩ := (hagain again).mp hread
    refine ⟨rfl, ?_, harranged.sorted_positiveZeros_eq hkeyed hdecoded.conforms hsorted,
      fun pass' => ?_⟩
    · obtain ⟨contents, unknown, cache⟩ := message
      rfl
    · rw [encode_fresh hnumbered hoptions harranged.positiveZeros]
      exact congrArg UnknownField.encodeAll harranged.records_positiveZeros

/-- Overlong numbers, an entry without its value, a negative zero and a field number under another
wire type; the map is written the other way round. -/
theorem counts_decode_canonical :
    let messages : Catalog := ⟨[("Counts", {
      name := "Counts"
      entries := [Samples.hashMap "counts" 1 .int32 (.scalar .int32),
        Samples.scalar "weight" 2 .float]
      unknownField := some "unknown" })]⟩
    let first : Scalar × Value := (.int32 1, .scalar (.int32 0))
    let second : Scalar × Value := (.int32 2, .scalar (.int32 5))
    let message (counts : List (Scalar × Value)) (weight : UInt32) : Message :=
      .mk [.mapping counts, .singular (.scalar (.float weight))] ⟨[⟨2, .varint 9⟩]⟩ .empty
    let bytes : Bytes := [10, 5, 8, 130, 0, 16, 5, 16, 137, 0, 10, 2, 8, 1, 21, 0, 0, 0, 128]
    messages.decode "Counts" bytes {} = .ok (message [first, second] 0x80000000) ∧
      messages.decode "Counts"
          (messages.encode "Counts" 0 (message [second, first] 0x80000000)).answer {} =
        .ok (message [first, second] 0) ∧
      (messages.encode "Counts" 0 (message [second, first] 0)).answer =
        (messages.encode "Counts" 0 (message [second, first] 0x80000000)).answer := by
  intro messages first second message bytes
  have hnumbered : messages.Numbered := by decide
  have hsplits : SplitsInto bytes [⟨1, .lengthDelimited [8, 130, 0, 16, 5]⟩, ⟨2, .varint 9⟩,
      ⟨1, .lengthDelimited [8, 1]⟩, ⟨2, .fixed32 0x80000000⟩] := splitsInto_iff.mpr (by decide)
  have hdecode : messages.decode "Counts" bytes {} = .ok (message [first, second] 0x80000000) := by
    rw [decode_eq_ok_iff hnumbered, message_eq, splitsInto_iff.mp hsplits]
    rfl
  obtain ⟨hconforms, hcanonical⟩ :=
    decode_canonical hnumbered (by decide) (by decide) (by decide) hdecode
  have harranged : (message [second, first] 0x80000000).Conforms messages Message.Fresh
      (messages.schema "Counts") := by
    have hnumber : UnknownFieldSet.Numbered ⟨[⟨2, .varint 9⟩]⟩ := by
      intro field hfield
      rw [List.mem_singleton.mp hfield]
      rfl
    have hkeys : ([second, first].map Prod.fst).Nodup := by decide
    refine .mk _ _ _ _ ⟨⟨hnumber, by decide, by decide⟩, rfl⟩ (.cons _ _ _ _
      (.mapping _ _ _ _ _ _ (by decide) hkeys ?_) (.cons _ _ _ _
        (.singular _ _ _ _ _ _ (.scalar _ _ rfl)) .nil))
    intro entry hentry
    rcases List.mem_pair.mp hentry with rfl | rfl
    · exact .scalar _ _ rfl
    · exact .scalar _ _ rfl
  obtain ⟨hsome, hagain⟩ := hcanonical _ harranged rfl 0 (by decide)
  obtain ⟨again, hread⟩ := hsome.mpr (by decide)
  obtain ⟨rfl, _, _, hsame⟩ := hagain again hread
  exact ⟨hdecode, hread, hsame 0⟩

/-- An account that a map entry lacks is filled in and written one level deeper than anything that
was read. -/
theorem missing_account_encoded_too_deep :
    let messages : Catalog := ⟨[("Registry", Samples.registry), ("Account", Samples.account)]⟩
    let flat : ReaderConfig := { recursionLimit := 0 }
    let account : Message := .mk [.singular (.scalar (.string "")),
      .singular (.enumeration (.variant 0))] .empty .empty
    let message : Message :=
      .mk [.mapping [(.uint64 7, .message account)], .mapping []] .empty .empty
    messages.Numbered ∧ messages.OptionsSingular ∧ messages.Defaulted ∧ messages.Keyed ∧
      messages.decode "Registry" [10, 2, 8, 7] flat = .ok message ∧
      ∀ again, messages.decode "Registry" (messages.encode "Registry" 0 message).answer flat ≠
        .ok again := by
  intro messages flat account message
  have hnumbered : messages.Numbered := by decide
  have hsplits : SplitsInto [10, 2, 8, 7] [⟨1, .lengthDelimited [8, 7]⟩] :=
    splitsInto_iff.mpr (by decide)
  have hdecode : messages.decode "Registry" [10, 2, 8, 7] flat = .ok message := by
    rw [decode_eq_ok_iff hnumbered, message_eq, splitsInto_iff.mp hsplits]
    rfl
  have hagain : SplitsInto (messages.encode "Registry" 0 message).answer
      [⟨1, .lengthDelimited [8, 7, 18, 0]⟩] := splitsInto_iff.mpr (by decide)
  refine ⟨hnumbered, by decide, by decide, by decide, hdecode, fun again => ?_⟩
  rw [Ne, decode_eq_ok_iff hnumbered, message_eq, splitsInto_iff.mp hagain]
  exact nofun

end ProtoWire.Catalog
