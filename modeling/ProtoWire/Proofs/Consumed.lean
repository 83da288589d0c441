import ProtoWire.Proofs.Lists
import ProtoWire.Proofs.Slices

/-! # Nothing left over

A read that succeeds accounts for every byte it was bounded to. The tag 0 is read at the innermost
end and nowhere else, whatever bytes come first, so a message body is read up to that end. What
stands behind a length is read up to the end that the length tells, and the bounds and the depth
around it are as before. The bytes passed split into records, or into the elements of a packed run.
-/

namespace ProtoWire

namespace Reader

variable {α : Type} {levels : Nat} {reader after : Reader}

/-- The reader behind a length and the payload that the length tells, with all of the payload
accounted for and nothing changed but the position and the last tag.
-/
def Passes (whole : Bytes → Prop) (reader after : Reader) : Prop :=
  ∃ (front payload rest : Bytes) (length : UInt64) (tag : UInt32),
    reader.window = front ++ payload ++ rest ∧ Varint.Denotes front length ∧
      payload.length = length.toNat ∧ whole payload ∧
      after = reader.moved (front.length + payload.length) tag

theorem Passes.mono {whole whole' : Bytes → Prop} (hpasses : Passes whole reader after)
    (hwhole : ∀ payload, whole payload → whole' payload) : Passes whole' reader after := by
  obtain ⟨front, payload, rest, length, tag, hwindow, hfront, hlength, hpayload, hafter⟩ := hpasses
  exact ⟨front, payload, rest, length, tag, hwindow, hfront, hlength, hwhole payload hpayload, hafter⟩

/-! ## The end -/

/-- The tag 0 is given at the end and never for bytes before it. -/
theorem readTag_zero_iff :
    (∃ after, readTag reader = .ok 0 after) ↔ reader.limit ≤ reader.position := by
  constructor
  · rintro ⟨after, hread⟩
    simpa using readTag_ok hread
  · intro hend
    exact ⟨_, readTag_past_end hend⟩

/-- A read that succeeds gives what it is told to give. -/
theorem Answers.of_ok {read : ReaderM α} {outcome : Option (α × Bytes)} {value : α}
    (hanswers : Answers read reader outcome) (hread : read reader = .ok value after) :
    ∃ rest tag, outcome = some (value, rest) ∧ rest <:+ reader.window ∧
      after = reader.past rest tag := by
  cases outcome with
  | none =>
      obtain ⟨error, last, herror⟩ := hanswers
      rw [hread] at herror
      cases herror
  | some found =>
      obtain ⟨hrest, tag, hok⟩ := hanswers
      rw [hread] at hok
      cases hok
      exact ⟨found.2, tag, rfl, hrest, rfl⟩

/-- A read that leaves nothing of its window stops at the innermost end. -/
theorem Answers.at_end {read : ReaderM α} {outcome : Option α} {value : α}
    (hanswers : Answers read reader (outcome.map (·, []))) (hread : read reader = .ok value after) :
    outcome = some value ∧ ∃ tag, after = { reader with position := reader.limit, lastTag := tag } := by
  obtain ⟨rest, tag, hmapped, _, rfl⟩ := hanswers.of_ok hread
  obtain ⟨found, hfound, hpair⟩ := Option.map_eq_some_iff.mp hmapped
  cases hpair
  exact ⟨hfound, tag, rfl⟩

/-- A read of what stands behind a length stops where the length tells. -/
theorem Answers.passes {read : ReaderM α} {inner : Bytes → Option α} {value : α}
    (hanswers : Answers read reader ((cutDelimited? reader.window).bind fun found =>
      (inner found.1).map (·, found.2)))
    (hsound : Sound levels reader) (hread : read reader = .ok value after) :
    Passes (inner · = some value) reader after := by
  obtain ⟨rest', tag, hfound, hrest, rfl⟩ := hanswers.of_ok hread
  obtain ⟨⟨payload, rest⟩, hcut, hinner⟩ := Option.bind_eq_some_iff.mp hfound
  obtain ⟨value', hvalue, hpair⟩ := Option.map_eq_some_iff.mp hinner
  cases hpair
  obtain ⟨⟨length, behind⟩, hlength, hpayload⟩ := Option.bind_eq_some_iff.mp hcut
  obtain ⟨front, hwindow, hfront⟩ := Varint.cut_eq_some_iff.mp hlength
  obtain ⟨rfl, hsize⟩ := Bytes.cut_eq_some_iff.mp hpayload
  rw [← List.append_assoc] at hwindow
  refine ⟨front, payload, rest, length, tag, hwindow, hfront, hsize, hvalue, ?_⟩
  rw [← List.length_append, moved_eq_past hsound hwindow]

/-! ## Bodies and payloads -/

variable {catalog : Catalog}

/-- A message is made of records from beginning to end. -/
theorem splitsInto_of_message {name : String} {bytes : Bytes} {message : Message}
    (hmessage : catalog.message? levels name bytes = some message) :
    ∃ records, SplitsInto bytes records := by
  rw [Catalog.message_eq] at hmessage
  obtain ⟨records, hsplit, _⟩ := Option.bind_eq_some_iff.mp hmessage
  exact ⟨records, splitsInto_iff.mpr hsplit⟩

theorem readMessage_passes (hnumbered : catalog.Numbered) (hsound : Sound levels reader)
    {name : String} {message : Message}
    (hread : catalog.readMessage name reader = .ok message after) :
    Passes (fun payload => ∃ records, SplitsInto payload records) reader after := by
  have hanswers := followsMessages_readBody hnumbered levels name reader hsound
  refine (hanswers.passes hsound hread).mono fun payload hpayload => ?_
  cases levels with
  | zero => cases hpayload
  | succ levels => exact splitsInto_of_message hpayload

/-- Elements of any width fill a packed run. -/
theorem readRepeated_passes (hnumbered : catalog.Numbered) (hsound : Sound levels reader)
    {element : ValueType} {values : List Value} (helement : element.wireType ≠ .len)
    (hdelimited : reader.lastTagIsDelimited = true)
    (hread : readRepeated element.wireType (element.read catalog.readBody) reader =
      .ok values after) :
    Passes (fun payload => ∃ payloads,
      Bytes.split? (UnknownValue.cut? element.wireType) payload = some payloads ∧
        payloads.length = values.length) reader after := by
  have hbody := followsMessages_readBody hnumbered levels
  obtain ⟨key, hkey, hwire⟩ : ∃ key, Tag.split reader.lastTag = .ok key ∧ key.wireType = .len := by
    rw [lastTagIsDelimited] at hdelimited
    cases hsplit : Tag.split reader.lastTag with
    | error error =>
        rw [hsplit] at hdelimited
        cases hdelimited
    | ok key =>
        rw [hsplit] at hdelimited
        exact ⟨key, rfl, beq_iff_eq.mp hdelimited⟩
  obtain ⟨hrange, htag⟩ := Tag.split_eq_ok_iff.mp hkey
  have hanswers := @answers_readElements _ _ _ hbody element _ _ hsound hrange htag (.inr hwire)
  rw [hwire, UnknownValue.cutAs_delimited] at hanswers
  simp only [ValueType.elements_packed helement] at hanswers
  have hpasses : Passes (fun payload =>
      ((Bytes.split? (UnknownValue.cut? element.wireType) payload).bind fun payloads =>
        payloads.mapM (element.interpret (catalog.nested? levels))) = some values) reader after :=
    hanswers.passes hsound hread
  refine hpasses.mono fun payload hpayload => ?_
  obtain ⟨payloads, hsplit, hvalues⟩ := Option.bind_eq_some_iff.mp hpayload
  exact ⟨payloads, hsplit, (zip_of_mapM hvalues).1⟩

theorem readMapEntry_passes (hnumbered : catalog.Numbered) (hsound : Sound levels reader)
    {key : ScalarType} {type : ValueType} {default : Value} {entry : Scalar × Value}
    (hread : readMapEntry catalog.readBody key type default reader = .ok entry after) :
    Passes (fun payload => ∃ records, SplitsInto payload records) reader after := by
  have hbody := followsMessages_readBody hnumbered levels
  have hanswers := follows_readMapEntry hbody key type default reader hsound
  rw [UnknownValue.cutAs_delimited] at hanswers
  have hpasses : Passes (fun payload => mapEntryOf (catalog.nested? levels) key type default
      (.lengthDelimited payload) = some entry) reader after := hanswers.passes hsound hread
  refine hpasses.mono fun payload hpayload => ?_
  obtain ⟨records, hsplit, _⟩ := Option.bind_eq_some_iff.mp hpayload
  exact ⟨records, splitsInto_iff.mpr hsplit⟩

end Reader

namespace Catalog

open Reader

/-- A success leaves nothing over. Wherever a reader stands, the tag 0 tells that it is at the
innermost end, a body of any message type ends there, and a nested message, a packed run of elements
of any width and a map entry end where their length tells, with every bound and the depth around
them as before. What is decoded as a whole is taken to its last byte; only behind a message that
stands behind its length may bytes be left. -/
theorem nothing_left_over {catalog : Catalog} (hnumbered : catalog.Numbered) :
    (∀ reader : Reader, reader.position ≤ reader.limit → reader.limit ≤ reader.buffer.size →
      ((∃ after, readTag reader = .ok 0 after) ↔ reader.position = reader.limit) ∧
      (∀ name message after, catalog.readBody name reader = .ok message after →
        (∃ records, SplitsInto reader.window records) ∧
          ∃ tag, after = { reader with position := reader.limit, lastTag := tag }) ∧
      (∀ name message after, catalog.readMessage name reader = .ok message after →
        Passes (fun payload => ∃ records, SplitsInto payload records) reader after) ∧
      (∀ (element : ValueType) values after, element.wireType ≠ .len →
        reader.lastTagIsDelimited = true →
        readRepeated element.wireType (element.read catalog.readBody) reader = .ok values after →
        Passes (fun payload => ∃ payloads,
          Bytes.split? (UnknownValue.cut? element.wireType) payload = some payloads ∧
            payloads.length = values.length) reader after) ∧
      ∀ key type default entry after,
        readMapEntry catalog.readBody key type default reader = .ok entry after →
        Passes (fun payload => ∃ records, SplitsInto payload records) reader after) ∧
    ∀ (name : String) (bytes : Bytes) (config : ReaderConfig) (message : Message),
      (catalog.decode name bytes config = .ok message →
        (∃ records, SplitsInto bytes records) ∧
          ∃ tag, catalog.readBody name (.ofBytes bytes config) = .ok message
            { Reader.ofBytes bytes config with position := bytes.length, lastTag := tag }) ∧
      (catalog.decodeDelimited name bytes config = .ok message →
        ∃ after, catalog.readMessage name (.ofBytes bytes config) = .ok message after ∧
          Passes (fun payload => ∃ records, SplitsInto payload records)
            (.ofBytes bytes config) after) := by
  have hbody : ∀ {levels : Nat} {reader after : Reader} {name : String} {message : Message},
      Sound levels reader → catalog.readBody name reader = .ok message after →
        (∃ records, SplitsInto reader.window records) ∧
          ∃ tag, after = { reader with position := reader.limit, lastTag := tag } := by
    intro levels reader after name message hsound hread
    obtain ⟨hmessage, hafter⟩ := (follows_readBody hnumbered levels name reader hsound).at_end hread
    exact ⟨splitsInto_of_message hmessage, hafter⟩
  constructor
  · intro reader hposition hlimit
    have hsound : Sound (reader.config.recursionLimit - reader.depth) reader :=
      ⟨hposition, hlimit, rfl⟩
    refine ⟨?_, fun name message after => hbody hsound,
      fun name message after => readMessage_passes hnumbered hsound,
      fun element values after => readRepeated_passes hnumbered hsound,
      fun key type default entry after => readMapEntry_passes hnumbered hsound⟩
    rw [readTag_zero_iff]
    exact ⟨hposition.antisymm, Eq.ge⟩
  · intro name bytes config message
    have hsound := sound_ofBytes bytes config
    have hok : ∀ read : ReaderM Message, decodeWith read bytes config = .ok message →
        ∃ after, read (.ofBytes bytes config) = .ok message after := by
      intro read hdecode
      rw [decodeWith] at hdecode
      split at hdecode <;> cases hdecode
      exact ⟨_, ‹_›⟩
    constructor
    · intro hdecode
      obtain ⟨after, hread⟩ := hok _ hdecode
      obtain ⟨hrecords, tag, rfl⟩ := hbody hsound hread
      rw [window_ofBytes] at hrecords
      exact ⟨hrecords, tag, hread⟩
    · intro hdecode
      obtain ⟨after, hread⟩ := hok _ hdecode
      exact ⟨after, hread, readMessage_passes hnumbered hsound hread⟩

/-- A tree with a child, between other bytes: the reader stops behind the child and in front of the
bytes after it. A zero byte inside is no end. -/
theorem tree_nothing_left_over :
    let trees : Catalog := ⟨[("Tree", Samples.tree)]⟩
    let tree (list : List Value) : Message :=
      .mk [.singular (.scalar (.string "")), .mapping [], .unset, .repeated list] .empty .empty
    let reader : Reader := ⟨#[255, 2, 42, 0, 7, 255], 1, 5, [6], 34, 0, {}⟩
    trees.Numbered ∧
      trees.readMessage "Tree" reader = .ok (tree [.message (tree [])]) (reader.skip 3) ∧
      Passes (fun payload => ∃ records, SplitsInto payload records) reader (reader.skip 3) ∧
      ¬ ∃ after, readTag { reader with position := 3 } = .ok 0 after := by
  intro trees tree reader
  have hnumbered : trees.Numbered := by decide
  have hread : trees.readMessage "Tree" reader =
      .ok (tree [.message (tree [])]) (reader.skip 3) := by
    cbv
  obtain ⟨hreader, -⟩ := nothing_left_over hnumbered
  obtain ⟨-, -, hmessage, -⟩ := hreader reader (by decide) (by decide)
  obtain ⟨htag, -⟩ := hreader { reader with position := 3 } (by decide) (by decide)
  exact ⟨hnumbered, hread, hmessage _ _ _ hread, htag.not.mpr (by decide)⟩

end Catalog

end ProtoWire
