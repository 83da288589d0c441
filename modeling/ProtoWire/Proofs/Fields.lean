import ProtoWire.Proofs.Presence
import ProtoWire.Proofs.Slices

/-! # Fields on their own

A value is written behind a key without a look at what stands around them, and the record is read
back wherever it stands. A field may hold an empty option: its key announces a payload that is not
written, and a packed run of a fixed width counts the elements that are not there.
-/

namespace ProtoWire

/-! ## Records where they stand -/

namespace Reader

variable {α β : Type} {levels : Nat} {reader : Reader}

/-- A tag is read and then a value, and the reader ends up `count` bytes further on with nothing else
changed but the last tag. -/
def Takes (tag : UInt32) (read : ReaderM α) (value : α) (count : Nat) (reader : Reader) : Prop :=
  ∃ middle last, readTag reader = .ok tag middle ∧ read middle = .ok value (reader.moved count last)

theorem Takes.map {tag : UInt32} {read : ReaderM α} {value : α} {count : Nat}
    (htakes : Takes tag read value count reader) (change : α → β) :
    Takes tag (read >>= fun value => Pure.pure (change value)) (change value) count reader := by
  obtain ⟨middle, last, htag, hread⟩ := htakes
  exact ⟨middle, last, htag, bind_ok hread _⟩

/-- The tag of a record is read, which leaves its payload. -/
theorem readTag_record (hsound : Sound levels reader) {record : UnknownField} {rest : Bytes}
    (hcut : UnknownField.cut? reader.window = some (record, rest)) :
    ∃ payload, payload <:+ reader.window ∧
      UnknownValue.cut? record.value.wireType payload = some (record.value, rest) ∧
      readTag reader = .ok record.tag (reader.past payload record.tag) := by
  have hwindow : reader.window ≠ [] := by
    intro hempty
    rw [hempty] at hcut
    cases hcut
  have htag := answers_readTag hsound hwindow
  simp only [UnknownField.cut?, Option.bind_eq_bind, Option.bind_eq_some_iff,
    Option.map_eq_some_iff, Prod.mk.injEq] at hcut
  obtain ⟨⟨key, payload⟩, hkey, ⟨value, _⟩, hvalue, rfl, rfl⟩ := hcut
  rw [hkey] at htag
  have hwire := (UnknownValue.cut_eq_some_iff.mp hvalue).1
  rw [UnknownField.tag, hwire]
  exact ⟨payload, htag.1, hvalue, htag.2⟩

/-- A record is read as what its payload means, wherever it stands. -/
theorem takes_record (hsound : Sound levels reader) {record : UnknownField} {written rest : Bytes}
    (hwindow : reader.window = written ++ rest)
    (hcut : UnknownField.cut? reader.window = some (record, rest)) {read : ReaderM α}
    {interpret : UnknownValue → Option α} {value : α}
    (hread : Follows levels read (UnknownValue.cutAs record.value.wireType interpret))
    (hvalue : interpret record.value = some value) :
    Takes record.tag read value written.length reader := by
  obtain ⟨payload, hsuffix, hpayload, htag⟩ := readTag_record hsound hcut
  have hanswers := hread _ (hsound.past payload record.tag)
  rw [window_past hsound hsuffix, UnknownValue.cutAs, hpayload, Option.bind_some, hvalue] at hanswers
  obtain ⟨-, last, hok⟩ := hanswers
  refine ⟨_, last, htag, ?_⟩
  rw [moved_eq_past hsound hwindow]
  exact hok

end Reader

/-- A message that a pass writes so that it can be read back: what is remembered of its size is
right, and its captured records are apart from its entries. -/
structure Message.Sendable (catalog : Catalog) (pass : Pass) (schema : MessageSchema)
    (message : Message) : Prop where
  countable : message.Countable catalog pass schema
  unknownApart : message.UnknownApart schema

section Fields

open Reader

variable {catalog : Catalog} {pass : Pass} {type : ValueType} {value : Value}

namespace Value.Conforms

theorem countable (hvalue : value.Conforms catalog (Message.Sendable catalog pass) type) :
    value.Conforms catalog (Message.Countable catalog pass) type :=
  hvalue.mono fun _ _ hsendable => hsendable.countable

theorem unknownApart (hvalue : value.Conforms catalog (Message.Sendable catalog pass) type) :
    value.Conforms catalog (fun schema message => message.UnknownApart schema) type :=
  hvalue.mono fun _ _ hsendable => hsendable.unknownApart

end Value.Conforms

/-- A value behind a key is read from its record, wherever the record stands. -/
theorem takes_value (hnumbered : catalog.Numbered) (hoptions : catalog.OptionsSingular)
    (hdefaulted : catalog.Defaulted)
    (hvalue : value.Conforms catalog (Message.Sendable catalog pass) type)
    (hpresent : value.isPresent = true) {number : UInt32} (hnumber : Tag.inRange number = true)
    {written rest : Bytes}
    (hwritten : written = Tag.encodeKey number type.wireType ++ value.write catalog pass type)
    (hlength : written.length < addressSpace) {levels : Nat} {reader : Reader}
    (hsound : Sound levels reader) (hdepth : value.depth catalog type ≤ levels)
    (hwindow : reader.window = written ++ rest) :
    Takes (Tag.make number type.wireType) (type.read catalog.readBody)
      (value.rebuild catalog .received type) written.length reader := by
  have hexact := hvalue.countable.exact hnumbered hoptions hpresent
  have hrestored := hvalue.unknownApart.restored hnumbered hoptions hdefaulted hpresent
  have hrecord : written = UnknownField.encode ⟨number, value.payload catalog type⟩ := by
    rw [hwritten, hexact.write_eq, UnknownField.encode_mk, hexact.wireType_eq]
  have hsize : (value.payload catalog type).size < addressSpace := by
    rw [hrecord, UnknownField.length_encode_mk hnumber] at hlength
    omega
  have hcut : UnknownField.cut? reader.window =
      some (⟨number, value.payload catalog type⟩, rest) := by
    rw [hwindow, hrecord]
    exact UnknownField.cut_encode ⟨hnumber, hsize⟩ rest
  have hfollows := follows_readValue (followsMessages_readBody hnumbered levels) type
  rw [← hexact.wireType_eq] at hfollows
  have htakes := takes_record hsound hwindow hcut hfollows
    (hrestored.interpret_eq levels hdepth hsize)
  rw [UnknownField.tag, hexact.wireType_eq] at htakes
  exact htakes

/-! ## Single fields -/

/-- A single field is as many bytes as predicted, and none exactly when it is a default that may be
left out. Otherwise, wherever the bytes stand, the tag and then the value are read from them to
their end, in case no option in the value is empty; with an empty option nothing but the key is
written, and the value cannot be read back. -/
theorem Catalog.singular_read_back_iff (hnumbered : catalog.Numbered)
    (hoptions : catalog.OptionsSingular) (hdefaulted : catalog.Defaulted)
    (hvalue : value.Conforms catalog (Message.Sendable catalog pass) type) {number : UInt32}
    (hnumber : Tag.inRange number = true) (name : String) (optional nonNull : Bool)
    (dialect : Dialect) :
    let entry := Entry.singular name number type optional nonNull
    let written := (Content.singular value).write catalog pass dialect entry
    (Content.singular value).size catalog pass dialect entry = written.length ∧
      (written = [] ↔ nonNull = false ∧ value.isDefault catalog pass type = true) ∧
      (written ≠ [] → value.isPresent = false → written = Tag.encodeKey number type.wireType) ∧
      (written ≠ [] → written.length < addressSpace → ∀ levels reader rest, Sound levels reader →
        value.depth catalog type ≤ levels → reader.window = written ++ rest →
          (Takes (Tag.make number type.wireType) (type.read catalog.readBody)
            (value.rebuild catalog .received type) written.length reader ↔
              value.isPresent = true)) := by
  intro entry written
  by_cases hkept : (nonNull || !value.isDefault catalog pass type) = true
  case neg =>
    have hnothing : written = [] := if_neg hkept
    have hsize : (Content.singular value).size catalog pass dialect entry = 0 := if_neg hkept
    rw [hnothing, hsize]
    refine ⟨rfl, ⟨fun _ => by simpa using hkept, fun _ => rfl⟩, ?_, ?_⟩ <;>
      exact fun hsome => absurd rfl hsome
  case pos =>
    have hwritten : written =
        Tag.encodeKey number type.wireType ++ value.write catalog pass type := if_pos hkept
    have hsize : (Content.singular value).size catalog pass dialect entry =
        Tag.keySize number + value.size catalog pass type := if_pos hkept
    have hlength : written.length = Tag.keySize number + value.size catalog pass type := by
      rw [hwritten, List.length_append, Tag.length_encodeKey hnumber,
        hvalue.countable.length_write hnumbered hoptions]
    have hsome : written ≠ [] := by
      have hkey : 0 < Tag.keySize number := Varint.size_pos _
      exact List.length_pos_iff.mp (by omega)
    refine ⟨hsize.trans hlength.symm, ⟨fun h => absurd h hsome, ?_⟩, ?_, ?_⟩
    · rintro ⟨rfl, hdefault⟩
      rw [hdefault] at hkept
      cases hkept
    · intro _ habsent
      rw [hwritten, (hvalue.nothing_written habsent pass).1, List.append_nil]
    · intro _ hcounted levels reader rest hsound hdepth hwindow
      constructor
      · rintro ⟨middle, last, -, hread⟩
        rw [← hvalue.isPresent_rebuild .received]
        exact ValueType.isPresent_of_read hread
      · intro hpresent
        exact takes_value hnumbered hoptions hdefaulted hvalue hpresent hnumber hwritten hcounted
          hsound hdepth hwindow

end Fields

namespace Catalog

open Reader

/-- The tag of an optional header in front of another record: the header is read to its end. -/
theorem header_read_back :
    let headers : Catalog := ⟨[("Header", Samples.header)]⟩
    let type := ValueType.option (.message "Header")
    let header : Value := .present (.message
      (.mk [.singular (.scalar (.uint32 7)), .singular (.scalar (.string ""))] .empty .empty))
    let written := (Content.singular header).write headers none .proto3
      (.singular "trailer" 3 type true false)
    written = [26, 2, 8, 7] ∧
      Takes 26 (type.read headers.readBody) header 4 (.ofBytes (written ++ [34, 0]) {}) := by
  intro headers type header written
  have hwritten : written = [26, 2, 8, 7] := by cbv
  have hempty : ∀ contents,
      (Message.mk contents UnknownFieldSet.empty SizeCache.empty).Sendable headers none
        (headers.schema "Header") :=
    fun _ => ⟨⟨nofun, nofun⟩, ⟨nofun, nofun, fun _ => rfl⟩⟩
  have hheader : header.Conforms headers (Message.Sendable headers none) type :=
    .present _ _ (.message "Header" _ (.mk _ _ _ _ (hempty _)
      (.cons _ _ _ _ (.singular _ _ _ _ _ _ (.scalar _ _ rfl))
        (.cons _ _ _ _ (.singular _ _ _ _ _ _ (.scalar _ _ rfl)) .nil))))
  obtain ⟨-, -, -, hread⟩ := singular_read_back_iff (by decide) (by decide) (by decide) hheader
    (by decide : Tag.inRange 3 = true) "trailer" true false .proto3
  refine ⟨hwritten, ?_⟩
  have hsome : written ≠ [] := by rw [hwritten]; exact nofun
  have hlength : written.length < addressSpace := by rw [hwritten]; decide
  exact (hread hsome hlength 100 _ [34, 0] (sound_ofBytes _ {}) (by decide)
    (window_ofBytes _ {})).mpr rfl

/-- An empty option that is always written leaves its key behind. It is not read back, and the key
takes what follows for its payload. -/
theorem empty_option_not_read_back :
    let type := ValueType.option (.scalar .int32)
    let written := (Content.singular .absent).write ⟨[]⟩ none .proto3 (.singular "" 1 type false true)
    let read := type.read (Catalog.readBody ⟨[]⟩)
    written = [8] ∧ ¬ Takes 8 read .absent 1 (.ofBytes written {}) ∧
      Takes 8 read (.present (.scalar (.int32 16))) 2 (.ofBytes (written ++ [16, 1]) {}) := by
  intro type written read
  have hwritten : written = [8] := by cbv
  refine ⟨hwritten, ?_, ?_⟩
  · rintro ⟨middle, last, -, hread⟩
    cases ValueType.isPresent_of_read hread
  · rw [hwritten]
    exact ⟨_, _, rfl, rfl⟩

end Catalog

/-! ## Repeated fields -/

/-- How many bytes too many a packed run is predicted to have: elements of a fixed width are counted
even when nothing is written of them. -/
def ValueType.overcount (element : ValueType) (values : List Value) : Nat :=
  match element.wireType.fixedWidth? with
  | some width => width * values.countP (!·.isPresent)
  | none => 0

theorem ValueType.overcount_eq_zero_iff {element : ValueType} {values : List Value} :
    element.overcount values = 0 ↔
      element.wireType.fixedWidth? = none ∨ ∀ value ∈ values, value.isPresent = true := by
  unfold overcount
  cases hwidth : element.wireType.fixedWidth? with
  | none => exact iff_of_true rfl (.inl rfl)
  | some width =>
      have hpositive : width ≠ 0 := by
        rintro rfl
        revert hwidth
        cases element.wireType <;> decide
      simp [hpositive, List.countP_eq_zero]

section Repeated

variable {catalog : Catalog} {pass : Pass} {element : ValueType} {values : List Value}
  (hnumbered : catalog.Numbered) (hoptions : catalog.OptionsSingular)
  (hvalues : ∀ value ∈ values, value.Conforms catalog (Message.Countable catalog pass) element)

include hnumbered hoptions hvalues

theorem length_writePayloads :
    (writePayloads catalog pass element values).length = valuesSize catalog pass element values := by
  induction values with
  | nil => rfl
  | cons value values ih =>
      obtain ⟨hvalue, hothers⟩ := List.forall_mem_cons.mp hvalues
      rw [writePayloads, valuesSize, List.length_append, hvalue.length_write hnumbered hoptions,
        ih hothers]

theorem length_writeElements {number : UInt32} (hnumber : Tag.inRange number = true) :
    (writeElements catalog pass number element values).length =
      values.length * Tag.keySize number + valuesSize catalog pass element values := by
  induction values with
  | nil => rw [List.length_nil, Nat.zero_mul]; rfl
  | cons value values ih =>
      obtain ⟨hvalue, hothers⟩ := List.forall_mem_cons.mp hvalues
      rw [writeElements, valuesSize, List.length_append, List.length_append,
        Tag.length_encodeKey hnumber, hvalue.length_write hnumbered hoptions, ih hothers,
        List.length_cons, Nat.succ_mul]
      omega

/-- A packed run is predicted to have as many bytes as are written of its elements, and the width of
every element of a fixed width that is not there. -/
theorem packedRunSize_overcount :
    packedRunSize element values.length (valuesSize catalog pass element values) =
      (writePayloads catalog pass element values).length + element.overcount values := by
  unfold packedRunSize ValueType.overcount
  cases hwidth : element.wireType.fixedWidth? with
  | none => exact (length_writePayloads hnumbered hoptions hvalues).symm
  | some width =>
      dsimp only
      induction values with
      | nil => rfl
      | cons value values ih =>
          obtain ⟨hvalue, hothers⟩ := List.forall_mem_cons.mp hvalues
          rw [List.length_cons, writePayloads, List.length_append, Nat.mul_succ, ih hothers,
            List.countP_cons]
          cases hpresent : value.isPresent with
          | true =>
              have hexact := hvalue.exact hnumbered hoptions hpresent
              have hlength : (value.write catalog pass element).length = width := by
                rw [hexact.write_eq, UnknownValue.length_encode]
                exact UnknownValue.size_of_fixedWidth (by rw [hexact.wireType_eq, hwidth])
              rw [hlength]
              simp only [Bool.not_true, Bool.false_eq_true, if_false, Nat.add_zero]
              omega
          | false =>
              rw [(hvalue.nothing_written hpresent pass).1, List.length_nil]
              simp only [Bool.not_false, if_true, Nat.mul_succ]
              omega

/-- A repeated field has as many bytes as predicted but for the width of every element of a fixed
width that is not there and still counted in a packed run, whose length is told too great by as
much. -/
theorem Catalog.repeated_size {number : UInt32} (hnumber : Tag.inRange number = true) (name : String)
    (packed : Option Bool) (dialect : Dialect) :
    let entry := Entry.repeated name number element packed
    let written := (Content.repeated values).write catalog pass dialect entry
    let payloads := writePayloads catalog pass element values
    let packs := dialect.packs element.fieldType packed
    let excess := if packs then element.overcount values else 0
    (Content.repeated values).size catalog pass dialect entry = written.length + excess ∧
      (packs = true → values ≠ [] → written =
        Tag.encodeKey number .len ++ (encodeLength (payloads.length + excess) ++ payloads)) ∧
      (excess = 0 ↔ packs = false ∨ element.wireType.fixedWidth? = none ∨
        ∀ value ∈ values, value.isPresent = true) := by
  intro entry written payloads packs excess
  by_cases hempty : values.isEmpty = true
  case pos =>
    have hnil := List.isEmpty_iff.mp hempty
    have hexcess : excess = 0 := by
      have hcount : element.overcount values = 0 :=
        ValueType.overcount_eq_zero_iff.mpr (.inr (by simp [hnil]))
      simp only [excess, hcount, ite_self]
    refine ⟨?_, fun _ hsome => absurd hnil hsome, iff_of_true hexcess (.inr (.inr (by simp [hnil])))⟩
    simp only [entry, written, hexcess, Content.size, Content.write, if_pos hempty, List.length_nil]
  case neg =>
    have hrun := packedRunSize_overcount hnumbered hoptions hvalues
    cases hpacks : packs with
    | true =>
        have hexcess : excess = element.overcount values := if_pos hpacks
        have hwritten : written = Tag.encodeKey number .len ++
            (encodeLength (payloads.length + excess) ++ payloads) := by
          simp only [written, entry, Content.write]
          rw [if_neg hempty, if_pos hpacks, hrun, hexcess]
        have hsize : (Content.repeated values).size catalog pass dialect entry =
            Tag.keySize number + Varint.delimitedSize (payloads.length + excess) := by
          simp only [entry, Content.size]
          rw [if_neg hempty, if_pos hpacks, hrun, hexcess]
        refine ⟨?_, fun _ _ => hwritten, ?_⟩
        · rw [hsize, hwritten, List.length_append, List.length_append, encodeLength,
            Varint.length_encode, Tag.length_encodeKey hnumber, Varint.delimitedSize]
          omega
        · rw [hexcess, ValueType.overcount_eq_zero_iff]
          simp only [Bool.true_eq_false, false_or]
    | false =>
        have hexcess : excess = 0 := if_neg (Bool.eq_false_iff.mp hpacks)
        refine ⟨?_, fun hpacked => absurd hpacked Bool.false_ne_true,
          iff_of_true hexcess (.inl rfl)⟩
        simp only [written, entry, hexcess, Content.size, Content.write]
        rw [if_neg hempty, if_neg hempty, if_neg (Bool.eq_false_iff.mp hpacks),
          if_neg (Bool.eq_false_iff.mp hpacks),
          length_writeElements hnumbered hoptions hvalues hnumber]
        rfl

end Repeated

namespace Catalog

/-- Of two optional words one is not there: the run is four bytes shorter than it is said to be. -/
theorem words_overcounted :
    let element := ValueType.option (.scalar .fixed32)
    let entry := Entry.repeated "" 1 element (some true)
    let content := Content.repeated [.absent, .present (.scalar (.fixed32 7))]
    content.write ⟨[]⟩ none .proto3 entry = [10, 8, 7, 0, 0, 0] ∧
      content.size ⟨[]⟩ none .proto3 entry = 6 + 4 := by
  intro element entry content
  have hvalues : ∀ value ∈ [Value.absent, .present (.scalar (.fixed32 7))],
      value.Conforms ⟨[]⟩ (Message.Countable ⟨[]⟩ none) element := by
    simp only [List.forall_mem_cons, List.not_mem_nil, false_implies, implies_true, and_true]
    exact ⟨.absent _, .present _ _ (.scalar _ _ rfl)⟩
  have hwritten : content.write ⟨[]⟩ none .proto3 entry = [10, 8, 7, 0, 0, 0] := by cbv
  have hsize := (repeated_size (by decide) (by decide) hvalues (by decide : Tag.inRange 1 = true) ""
    (some true) .proto3).1
  rw [hwritten] at hsize
  exact ⟨hwritten, hsize⟩

/-- Of an optional word that is not there, a packed run says that it has four bytes and has none. -/
theorem absent_word_counted :
    let entry := Entry.repeated "" 1 (.option (.scalar .fixed32)) (some true)
    let content := Content.repeated [.absent]
    let written := content.write ⟨[]⟩ none .proto3 entry
    Tag.inRange 1 = true ∧
      Value.Conforms ⟨[]⟩ (Message.Countable ⟨[]⟩ none) (.option (.scalar .fixed32)) .absent ∧
      written = Tag.encodeKey 1 .len ++ (encodeLength 4 ++ []) ∧
      written.length ≠ content.size ⟨[]⟩ none .proto3 entry := by
  intro entry content written
  exact ⟨by decide, .absent _, by cbv, by decide⟩

end Catalog

end ProtoWire
