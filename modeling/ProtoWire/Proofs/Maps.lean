import ProtoWire.Proofs.Consumed
import ProtoWire.Proofs.Decoded
import ProtoWire.Proofs.Fields

/-! # Maps entry by entry

An entry of a map is a payload of records of any kind and in any order. The last key and the last
value in it count, and the pair is inserted into the map; where the entry cannot be read, the map
stays as it was. So entries read one after the other are insertions one after the other.
-/

namespace ProtoWire

open Reader

/-! ## Insertion -/

/-- An inserted entry is found under its key, and what is found under other keys stays. -/
theorem lookup_insertEntry (key : Scalar) (value : Value) (entries : List (Scalar × Value))
    (other : Scalar) :
    (insertEntry key value entries).lookup other =
      if other = key then some value else entries.lookup other := by
  induction entries with
  | nil => exact lookup_cons_eq_ite (key, value) [] other
  | cons entry entries ih =>
      obtain ⟨held, kept⟩ := entry
      rw [insertEntry]
      split
      next hsame =>
        rw [lookup_cons_eq_ite, lookup_cons_eq_ite, ← hsame]
        split <;> rfl
      next hne =>
        split
        · rw [lookup_cons_eq_ite]
        · exact lookup_cons_of_set hne ih

/-- The entries of a map with others inserted one after the other. -/
def insertEntries (held found : List (Scalar × Value)) : List (Scalar × Value) :=
  found.foldl (fun held entry => insertEntry entry.1 entry.2 held) held

/-- Of the entries inserted under a key the last is found, or else what was held. -/
theorem lookup_insertEntries (held found : List (Scalar × Value)) (other : Scalar) :
    (insertEntries held found).lookup other =
      (found.reverse.lookup other).or (held.lookup other) := by
  induction found generalizing held with
  | nil => rfl
  | cons entry found ih =>
      have hrest := ih (insertEntry entry.1 entry.2 held)
      rw [lookup_insertEntry] at hrest
      rw [List.reverse_cons, List.lookup_append, Option.or_assoc, lookup_cons_eq_ite]
      refine hrest.trans (congrArg _ ?_)
      split <;> rfl

/-! ## Payloads of entries -/

/-- What a payload says of an entry. It is a sequence of records, and the keys and the values among
them can be read; the last of each counts, or the default where there is none. Other records count
for nothing. -/
def HoldsEntry (body : String → Bytes → Option Message) (key : ScalarType) (type : ValueType)
    (default : Value) (payload : UnknownValue) (entry : Scalar × Value) : Prop :=
  ∃ bytes records keys values, payload = .lengthDelimited bytes ∧ SplitsInto bytes records ∧
    (records.filter (·.tag == mapKeyTag key)).mapM (fun record => key.interpret record.value) =
      some keys ∧
    (records.filter (·.tag == mapValueTag type)).mapM
        (fun record => type.interpret body record.value) = some values ∧
    entry = (keys.getLast?.getD key.zero, values.getLast?.getD default)

theorem holdsEntry_iff {body : String → Bytes → Option Message} {key : ScalarType}
    {type : ValueType} {default : Value} {payload : UnknownValue} {entry : Scalar × Value} :
    HoldsEntry body key type default payload entry ↔
      mapEntryOf body key type default payload = some entry := by
  cases payload with
  | varint | fixed32 | fixed64 => exact iff_of_false (fun ⟨_, _, _, _, h, _⟩ => nomatch h) nofun
  | lengthDelimited bytes =>
      simp only [HoldsEntry, mapEntryOf, Option.bind_eq_bind, Option.bind_eq_some_iff,
        Option.pure_def, Option.some.injEq, splitsInto_iff]
      constructor
      · rintro ⟨_, records, keys, values, hpayload, hsplit, hkeys, hvalues, rfl⟩
        cases hpayload
        exact ⟨records, hsplit, keys, hkeys, values, hvalues, rfl⟩
      · rintro ⟨records, hsplit, keys, hkeys, values, hvalues, rfl⟩
        exact ⟨bytes, records, keys, values, rfl, hsplit, hkeys, hvalues, rfl⟩

/-! ## Filling a map -/

/-- A map that is filled, and the reader that it is filled from. -/
structure Filling where
  entries : List (Scalar × Value)
  reader : Reader

namespace Filling

/-- A read from the reader of a map. What the map holds stays, also where the read fails. -/
def lift {α : Type} (read : ReaderM α) : EStateM DecodeError Filling α := fun filling =>
  match read filling.reader with
  | .ok value reader => .ok value { filling with reader }
  | .error error reader => .error error { filling with reader }

theorem lift_ok {α : Type} {read : ReaderM α} {reader after : Reader} {value : α}
    (hread : read reader = .ok value after) (held : List (Scalar × Value)) :
    lift read ⟨held, reader⟩ = .ok value ⟨held, after⟩ := by
  rw [lift, hread]

theorem lift_error {α : Type} {read : ReaderM α} {reader after : Reader} {error : DecodeError}
    (hread : read reader = .error error after) (held : List (Scalar × Value)) :
    lift read ⟨held, reader⟩ = .error error ⟨held, after⟩ := by
  rw [lift, hread]

theorem entries_of_lift_ok {α : Type} {read : ReaderM α} {filling filled : Filling} {value : α}
    (hlift : lift read filling = .ok value filled) : filled.entries = filling.entries := by
  unfold lift at hlift
  split at hlift <;> cases hlift
  rfl

theorem entries_of_lift_error {α : Type} {read : ReaderM α} {filling filled : Filling}
    {error : DecodeError} (hlift : lift read filling = .error error filled) :
    filled.entries = filling.entries := by
  unfold lift at hlift
  split at hlift <;> cases hlift
  rfl

end Filling

namespace Catalog

/-- Reads an entry behind its tag and inserts it into the map. -/
def fillEntry (catalog : Catalog) (key : ScalarType) (type : ValueType) :
    EStateM DecodeError Filling Unit := do
  let default := (catalog.default? type).getD .absent
  let entry ← Filling.lift (readMapEntry catalog.readBody key type default)
  modify fun filling => { filling with entries := insertEntry entry.1 entry.2 filling.entries }

/-- Reads a number of entries, each behind its tag, and gives the tags. -/
def fillEntries (catalog : Catalog) (key : ScalarType) (type : ValueType) :
    Nat → EStateM DecodeError Filling (List UInt32)
  | 0 => return []
  | count + 1 => do
      let tag ← Filling.lift readTag
      catalog.fillEntry key type
      return tag :: (← catalog.fillEntries key type count)

variable {catalog : Catalog} {key : ScalarType} {type : ValueType} {default : Value}
  {levels : Nat} {reader after : Reader} {held : List (Scalar × Value)} {entry : Scalar × Value}

section Step

theorem fillEntry_ok (hdefault : catalog.default? type = some default)
    (hread : readMapEntry catalog.readBody key type default reader = .ok entry after) :
    catalog.fillEntry key type ⟨held, reader⟩ =
      .ok () ⟨insertEntry entry.1 entry.2 held, after⟩ := by
  rw [fillEntry, hdefault, Option.getD_some]
  exact bind_ok (Filling.lift_ok hread held) _

theorem fillEntry_error {error : DecodeError} (hdefault : catalog.default? type = some default)
    (hread : readMapEntry catalog.readBody key type default reader = .error error after) :
    catalog.fillEntry key type ⟨held, reader⟩ = .error error ⟨held, after⟩ := by
  rw [fillEntry, hdefault, Option.getD_some]
  exact bind_error (Filling.lift_error hread held) _

/-- A message puts the record of a map into its slot as a map is filled. -/
theorem readRecord_map (hdefault : catalog.default? type = some default) (name : String)
    (number : UInt32) (order : MapOrder) (tag : UInt32) (slot : Option Content) (reader : Reader) :
    (Entry.map name number key type order).readRecord catalog catalog.readBody tag slot reader =
      match catalog.fillEntry key type ⟨Content.mapEntries slot, reader⟩ with
      | .ok _ filled => .ok (some (.mapping filled.entries)) filled.reader
      | .error error filled => .error error filled.reader := by
  rw [Entry.readRecord, hdefault, Option.getD_some]
  cases hread : readMapEntry catalog.readBody key type default reader with
  | ok entry after =>
      rw [fillEntry_ok hdefault hread]
      exact bind_ok hread _
  | error error after =>
      rw [fillEntry_error hdefault hread]
      exact bind_error hread _

/-- What a failure leaves is the map as it was. -/
theorem fillEntry_keeps {error : DecodeError} {filling filled : Filling}
    (hfill : catalog.fillEntry key type filling = .error error filled) :
    filled.entries = filling.entries := by
  rcases error_of_bind hfill with hread | ⟨entry, middle, -, hinsert⟩
  · exact Filling.entries_of_lift_error hread
  · cases hinsert

/-- An entry that stands behind its length is inserted. -/
theorem fillEntry_holds (hnumbered : catalog.Numbered) (hsound : Sound levels reader)
    (hdefault : catalog.default? type = some default) {front payload rest : Bytes}
    {length : UInt64} (hwindow : reader.window = front ++ payload ++ rest)
    (hfront : Varint.Denotes front length) (hlength : payload.length = length.toNat)
    (hentry : HoldsEntry (catalog.nested? levels) key type default (.lengthDelimited payload)
      entry) :
    ∃ last, catalog.fillEntry key type ⟨held, reader⟩ = .ok ()
      ⟨insertEntry entry.1 entry.2 held, reader.moved (front.length + payload.length) last⟩ := by
  have hanswers := follows_readMapEntry (followsMessages_readBody hnumbered levels) key type
    default reader hsound
  have hcut : UnknownValue.cut? .len reader.window = some (.lengthDelimited payload, rest) :=
    UnknownValue.cut_eq_some_iff.mpr
      ⟨rfl, front ++ payload, hwindow, .lengthDelimited front payload length hfront hlength⟩
  rw [UnknownValue.cutAs, hcut, Option.bind_some, holdsEntry_iff.mp hentry] at hanswers
  obtain ⟨-, last, hread⟩ := hanswers
  refine ⟨last, ?_⟩
  rw [← List.length_append, moved_eq_past hsound hwindow]
  exact fillEntry_ok hdefault hread

/-- An entry that is read stands behind a length and ends where the length tells. -/
theorem fillEntry_passes (hnumbered : catalog.Numbered) (hsound : Sound levels reader)
    (hdefault : catalog.default? type = some default) {filled : Filling}
    (hfill : catalog.fillEntry key type ⟨held, reader⟩ = .ok () filled) :
    ∃ entry, filled.entries = insertEntry entry.1 entry.2 held ∧
      Passes (fun payload => HoldsEntry (catalog.nested? levels) key type default
        (.lengthDelimited payload) entry) reader filled.reader := by
  cases hread : readMapEntry catalog.readBody key type default reader with
  | error error after =>
      rw [fillEntry_error hdefault hread] at hfill
      cases hfill
  | ok entry after =>
      rw [fillEntry_ok hdefault hread] at hfill
      cases hfill
      have hanswers := follows_readMapEntry (followsMessages_readBody hnumbered levels) key type
        default reader hsound
      rw [UnknownValue.cutAs_delimited] at hanswers
      exact ⟨entry, rfl, (hanswers.passes hsound hread).mono fun _ => holdsEntry_iff.mpr⟩

end Step

/-! ### Runs -/

/-- Entries one after the other are inserted one after the other, wherever they stand. -/
theorem fillEntries_run (hnumbered : catalog.Numbered)
    (hdefault : catalog.default? type = some default) {front rest : Bytes}
    {records : List UnknownField} {found : List (Scalar × Value)}
    (hsplits : SplitsInto front records)
    (hfound : List.Forall₂ (fun record entry =>
      HoldsEntry (catalog.nested? levels) key type default record.value entry) records found)
    (hsound : Sound levels reader) (hwindow : reader.window = front ++ rest)
    (held : List (Scalar × Value)) :
    ∃ last, catalog.fillEntries key type records.length ⟨held, reader⟩ =
      .ok (records.map (·.tag)) ⟨insertEntries held found, reader.moved front.length last⟩ := by
  induction hsplits generalizing reader held found with
  | nil =>
      cases hfound
      exact ⟨reader.lastTag, rfl⟩
  | cons bytes others record records hframes _ ih =>
      cases hfound with
      | @cons _ entry _ found hentry hfound =>
          rw [List.append_assoc] at hwindow
          have hcut : UnknownField.cut? reader.window = some (record, others ++ rest) := by
            rw [hwindow]
            exact UnknownField.cut_eq_some_iff.mpr ⟨bytes, rfl, hframes⟩
          have hread := follows_readMapEntry (followsMessages_readBody hnumbered levels) key type
            default
          have hwire : record.value.wireType = .len := by
            obtain ⟨_, _, _, _, hvalue, -⟩ := hentry
            rw [hvalue]
            rfl
          rw [← hwire] at hread
          obtain ⟨middle, last, htag, hok⟩ :=
            takes_record hsound hwindow hcut hread (holdsEntry_iff.mp hentry)
          -- Behind the record the reader sees the others, where the hypothesis takes over.
          have hbehind := moved_eq_past hsound hwindow last
          have hsuffix : others ++ rest <:+ reader.window := ⟨bytes, hwindow.symm⟩
          obtain ⟨last', hothers⟩ := ih hfound (hbehind ▸ hsound.past (others ++ rest) last)
            (hbehind ▸ window_past hsound hsuffix last) (insertEntry entry.1 entry.2 held)
          refine ⟨last', ?_⟩
          rw [List.length_cons, fillEntries, bind_ok (Filling.lift_ok htag held),
            bind_ok (fillEntry_ok hdefault hok), bind_ok hothers, moved_moved, List.length_append]
          rfl

/-- A run that fails leaves what the entries before the failure make of the map. -/
theorem fillEntries_keeps {count : Nat} {error : DecodeError} {filling filled : Filling}
    (hfill : catalog.fillEntries key type count filling = .error error filled) :
    ∃ before tags middle, before < count ∧
      catalog.fillEntries key type before filling = .ok tags middle ∧
        filled.entries = middle.entries := by
  induction count generalizing filling with
  | zero => cases hfill
  | succ count ih =>
      rw [fillEntries] at hfill
      rcases error_of_bind hfill with htag | ⟨tag, behind, htag, hrest⟩
      · exact ⟨0, [], filling, Nat.succ_pos count, rfl, Filling.entries_of_lift_error htag⟩
      rcases error_of_bind hrest with hentry | ⟨_, next, hentry, hothers⟩
      · exact ⟨0, [], filling, Nat.succ_pos count, rfl,
          (fillEntry_keeps hentry).trans (Filling.entries_of_lift_ok htag)⟩
      rcases error_of_bind hothers with hothers | ⟨_, _, -, hmade⟩
      · obtain ⟨before, tags, middle, hbefore, hrun, hkept⟩ := ih hothers
        refine ⟨before + 1, tag :: tags, middle, Nat.succ_lt_succ hbefore, ?_, hkept⟩
        rw [fillEntries, bind_ok htag, bind_ok hentry, bind_ok hrun]
        rfl
      · cases hmade

/-- The entries of a map as they are written are read back into an empty map. -/
theorem fillEntries_written (hnumbered : catalog.Numbered) (hoptions : catalog.OptionsSingular)
    (hdefaulted : catalog.Defaulted) (hplain : type.isPlain = true)
    (hdefault : catalog.default? type = some default) {pass : Pass} {number : UInt32}
    (hnumber : Tag.inRange number = true) {entries : List (Scalar × Value)}
    (hkeys : ∀ entry ∈ entries, entry.1.type = key)
    (hvalues : ∀ entry ∈ entries, entry.2.Conforms catalog (Message.Sendable catalog pass) type)
    (hlength : (writeMapEntries catalog pass number type entries).length < addressSpace)
    (hsound : Sound levels reader) (hdepth : entriesDepth catalog type entries ≤ levels)
    {rest : Bytes}
    (hwindow : reader.window = writeMapEntries catalog pass number type entries ++ rest) :
    ∃ last, catalog.fillEntries key type entries.length ⟨[], reader⟩ =
      .ok (List.replicate entries.length (Tag.make number .len))
        ⟨sortEntries (entries.map fun entry => (entry.1, entry.2.rebuild catalog .received type)),
          reader.moved (writeMapEntries catalog pass number type entries).length last⟩ := by
  let record (entry : Scalar × Value) : UnknownField :=
    ⟨number, entryPayload entry.1.payload (entry.2.payload catalog type)⟩
  have hpresent := fun entry hentry => (hvalues entry hentry).isPresent_of_isPlain hplain
  have hwritten : writeMapEntries catalog pass number type entries =
      UnknownField.encodeAll (entries.map record) := by
    rw [writeMapEntries_eq fun entry hentry =>
      (hvalues entry hentry).countable.exact hnumbered hoptions (hpresent entry hentry),
      entryPayloads_eq, List.map_map]
    rfl
  have hsendable : ∀ field ∈ entries.map record, field.Sendable := by
    refine UnknownField.sendable_of_encodeAll ?_ (hwritten ▸ hlength)
    intro field hfield
    obtain ⟨entry, -, rfl⟩ := List.mem_map.mp hfield
    exact hnumber
  have hsplits : SplitsInto (writeMapEntries catalog pass number type entries)
      (entries.map record) := by
    rw [hwritten]
    exact splitsInto_iff.mpr (UnknownField.split_encode hsendable)
  have hfound : List.Forall₂ (fun field entry =>
      HoldsEntry (catalog.nested? levels) key type default field.value entry)
      (entries.map record)
      (entries.map fun entry => (entry.1, entry.2.rebuild catalog .received type)) := by
    rw [List.forall₂_map_left_iff, List.forall₂_map_right_iff, List.forall₂_same]
    intro entry hentry
    have hrestored := (hvalues entry hentry).unknownApart.restored hnumbered hoptions hdefaulted
      (hpresent entry hentry)
    exact holdsEntry_iff.mpr (entry_restored (hkeys entry hentry) hrestored
      ((depth_le_entriesDepth hentry).trans hdepth)
      (hsendable _ (List.mem_map_of_mem hentry)).2 default)
  obtain ⟨last, hrun⟩ := fillEntries_run hnumbered hdefault hsplits hfound hsound hwindow []
  have htags : (entries.map record).map (·.tag) =
      List.replicate entries.length (Tag.make number .len) := by
    rw [List.map_map, List.eq_replicate_iff, List.length_map]
    refine ⟨rfl, fun tag htag => ?_⟩
    obtain ⟨entry, -, rfl⟩ := List.mem_map.mp htag
    rfl
  rw [List.length_map, htags] at hrun
  exact ⟨last, hrun⟩

/-- Maps of values without options are written and read back. The bytes are as many as predicted in
every order of the entries, and read entry by entry, wherever they stand, they give the same map to
their end. An entry of any records at all is inserted with its last key and its last value, or the
defaults of those that are missing, so what is held under other keys stays; it is read exactly to
the end that its length tells, and where it cannot be read the map stays as it was. Entries one
after the other are inserted one after the other, up to the first that cannot be read. -/
theorem map_read_back (hnumbered : catalog.Numbered) (hoptions : catalog.OptionsSingular)
    (hdefaulted : catalog.Defaulted) (hkey : key.isMapKey = true) (hplain : type.isPlain = true)
    (hdefault : catalog.default? type = some default) :
    (∀ (pass : Pass) (dialect : Dialect) (name : String) (number : UInt32) (order : MapOrder)
      (entries : List (Scalar × Value)), Tag.inRange number = true →
      (∀ entry ∈ entries, entry.1.type = key) → (entries.map Prod.fst).Nodup →
      (∀ entry ∈ entries, entry.2.Conforms catalog (Message.Sendable catalog pass) type) →
        let written := (Content.mapping entries).write catalog pass dialect
          (.map name number key type order)
        let received := entries.map fun entry =>
          (entry.1, entry.2.rebuild catalog .received type)
        (Content.mapping entries).size catalog pass dialect (.map name number key type order) =
            written.length ∧
          (sortEntries received).Perm received ∧ MapOrder.byKey.Arranges (sortEntries received) ∧
          (written.length < addressSpace → ∀ levels reader rest, Sound levels reader →
            entriesDepth catalog type entries ≤ levels → reader.window = written ++ rest →
              ∃ last, catalog.fillEntries key type entries.length ⟨[], reader⟩ =
                .ok (List.replicate entries.length (Tag.make number .len))
                  ⟨sortEntries received, reader.moved written.length last⟩)) ∧
    ∀ levels reader held, Sound levels reader →
      let holds := HoldsEntry (catalog.nested? levels) key type default
      (∀ front payload rest length entry, reader.window = front ++ payload ++ rest →
        Varint.Denotes front length → payload.length = length.toNat →
        holds (.lengthDelimited payload) entry →
          ∃ last, catalog.fillEntry key type ⟨held, reader⟩ = .ok ()
            ⟨insertEntry entry.1 entry.2 held,
              reader.moved (front.length + payload.length) last⟩) ∧
      (∀ filled, catalog.fillEntry key type ⟨held, reader⟩ = .ok () filled →
        ((∀ entry ∈ held, entry.1.type = key) → MapOrder.byKey.Arranges held →
          MapOrder.byKey.Arranges filled.entries) ∧
        ∃ entry, Passes (fun payload => holds (.lengthDelimited payload) entry) reader
            filled.reader ∧
          ∀ other, filled.entries.lookup other =
            if other = entry.1 then some entry.2 else held.lookup other) ∧
      (∀ error filled, catalog.fillEntry key type ⟨held, reader⟩ = .error error filled →
        filled.entries = held) ∧
      (∀ front rest records found, SplitsInto front records →
        List.Forall₂ (fun record entry => holds record.value entry) records found →
        reader.window = front ++ rest →
          (∃ last, catalog.fillEntries key type records.length ⟨held, reader⟩ =
            .ok (records.map (·.tag))
              ⟨insertEntries held found, reader.moved front.length last⟩) ∧
          ∀ other, (insertEntries held found).lookup other =
            (found.reverse.lookup other).or (held.lookup other)) ∧
      ∀ count error filled,
        catalog.fillEntries key type count ⟨held, reader⟩ = .error error filled →
          ∃ before tags middle, before < count ∧
            catalog.fillEntries key type before ⟨held, reader⟩ = .ok tags middle ∧
              filled.entries = middle.entries := by
  constructor
  · intro pass dialect name number order entries hnumber hkeys hnodup hvalues written received
    have hexact := fun entry hentry => (hvalues entry hentry).countable.exact hnumbered hoptions
      ((hvalues entry hentry).isPresent_of_isPlain hplain)
    have hreceived : ∀ entry ∈ received, entry.1.type = key := by
      intro entry hentry
      obtain ⟨sent, hsent, rfl⟩ := List.mem_map.mp hentry
      exact hkeys sent hsent
    refine ⟨?_, ?_, sortEntries_byKey hkey hreceived, ?_⟩
    · have hsize := mapEntriesSize_eq hnumber hexact
      rw [← writeMapEntries_eq hexact] at hsize
      exact hsize
    · have harranged : MapOrder.unspecified.Arranges entries := hnodup
      exact sortEntries_perm (harranged.map _)
    · intro hlength levels reader rest hsound hdepth hwindow
      exact fillEntries_written hnumbered hoptions hdefaulted hplain hdefault hnumber hkeys hvalues
        hlength hsound hdepth hwindow
  · intro levels reader held hsound holds
    refine ⟨?_, ?_, fun error filled => fillEntry_keeps, ?_, fun count error filled =>
      fillEntries_keeps⟩
    · intro front payload rest length entry hwindow hfront hlength hentry
      exact fillEntry_holds hnumbered hsound hdefault hwindow hfront hlength hentry
    · intro filled hfill
      obtain ⟨entry, hfilled, hpasses⟩ := fillEntry_passes hnumbered hsound hdefault hfill
      rw [hfilled]
      refine ⟨fun hkeys hsorted => ?_, entry, hpasses, lookup_insertEntry entry.1 entry.2 held⟩
      obtain ⟨_, payload, _, _, _, -, -, -, hentry, -⟩ := hpasses
      have htype := type_of_mapEntry (holdsEntry_iff.mp hentry)
      exact insertEntry_byKey (htype ▸ hkey) (fun other hother => (hkeys other hother).trans
        htype.symm) hsorted entry.2
    · intro front rest records found hsplits hfound hwindow
      exact ⟨fillEntries_run hnumbered hdefault hsplits hfound hsound hwindow held,
        lookup_insertEntries held found⟩

/-- Two counts are written and read back, sorted. An entry with a stray record, two values and a
varint under the number of the key replaces what its key held, one that is cut off leaves the counts
as they were, and of two entries without a key the second counts. -/
theorem counts_read_back :
    let counts : Catalog := ⟨[]⟩
    let type := ValueType.scalar .int32
    let count (key : String) (number : Int32) : Scalar × Value :=
      (.string key, .scalar (.int32 number))
    let written := (Content.mapping [count "t" 100, count "" 0]).write counts none .proto3
      (.map "entries" 1 .string type .unspecified)
    let stray : Bytes := [24, 9, 16, 7, 10, 1, 107, 16, 2, 8, 1]
    let cut : Reader := .ofBytes [9, 8, 1] {}
    let keyless : Reader := .ofBytes [10, 0, 10, 2, 16, 5] {}
    written = [10, 5, 10, 1, 116, 16, 100, 10, 4, 10, 0, 16, 0] ∧
      (∃ last, counts.fillEntries .string type 2 ⟨[], .ofBytes written {}⟩ = .ok [10, 10]
        ⟨[count "" 0, count "t" 100], (Reader.ofBytes written {}).moved 13 last⟩) ∧
      (∃ last, counts.fillEntry .string type ⟨[count "k" 1, count "t" 100],
          .ofBytes (11 :: stray) {}⟩ =
        .ok () ⟨[count "k" 2, count "t" 100], (Reader.ofBytes (11 :: stray) {}).moved 12 last⟩) ∧
      (∃ error filled, counts.fillEntry .string type ⟨[count "t" 100], cut⟩ = .error error filled ∧
        filled.entries = [count "t" 100]) ∧
      ∃ last, counts.fillEntries .string type 2 ⟨[count "t" 100], keyless⟩ = .ok [10, 10]
        ⟨[count "" 5, count "t" 100], keyless.moved 6 last⟩ := by
  intro counts type count written stray cut keyless
  have hwritten : written = [10, 5, 10, 1, 116, 16, 100, 10, 4, 10, 0, 16, 0] := by cbv
  have hdefault : counts.default? type = some (.scalar (.int32 0)) := rfl
  obtain ⟨hwrite, hread⟩ := map_read_back (by decide) (by decide) (by decide)
    (rfl : ScalarType.string.isMapKey = true) rfl hdefault
  refine ⟨hwritten, ?_, ?_, ?_, ?_⟩
  · obtain ⟨-, -, -, hback⟩ := hwrite none .proto3 "entries" 1 .unspecified
      [count "t" 100, count "" 0] rfl (by decide) (by decide) (by
        simp only [List.forall_mem_cons, List.not_mem_nil, false_implies, implies_true, and_true]
        exact ⟨.scalar _ _ rfl, .scalar _ _ rfl⟩)
    have hlength : written.length < addressSpace := by rw [hwritten]; decide
    obtain ⟨last, hfilled⟩ := hback hlength 100 (.ofBytes written {}) [] (sound_ofBytes _ {})
      (by decide) ((window_ofBytes _ {}).trans (List.append_nil _).symm)
    rw [hwritten] at hfilled ⊢
    exact ⟨last, hfilled⟩
  · obtain ⟨hholds, -⟩ := hread 100 (.ofBytes (11 :: stray) {}) [count "k" 1, count "t" 100]
      (sound_ofBytes _ {})
    refine hholds [11] stray [] 11 (count "k" 2) (window_ofBytes _ {}) rfl rfl ?_
    exact ⟨stray, [⟨3, .varint 9⟩, ⟨2, .varint 7⟩, ⟨1, .lengthDelimited [107]⟩, ⟨2, .varint 2⟩,
      ⟨1, .varint 1⟩], [.string "k"], [.scalar (.int32 7), .scalar (.int32 2)], rfl,
      splitsInto_iff.mpr (by decide), by decide, rfl, rfl⟩
  · obtain ⟨-, -, hkeeps, -⟩ := hread 100 cut [count "t" 100] (sound_ofBytes _ {})
    exact ⟨_, _, rfl, hkeeps _ _ rfl⟩
  · obtain ⟨-, -, -, hrun, -⟩ := hread 100 keyless [count "t" 100] (sound_ofBytes _ {})
    obtain ⟨hfilled, -⟩ := hrun [10, 0, 10, 2, 16, 5] []
      [⟨1, .lengthDelimited []⟩, ⟨1, .lengthDelimited [16, 5]⟩] [count "" 0, count "" 5]
      (splitsInto_iff.mpr (by decide))
      (.cons ⟨[], [], [], [], rfl, .nil, rfl, rfl, rfl⟩
        (.cons ⟨[16, 5], [⟨2, .varint 5⟩], [], [.scalar (.int32 5)], rfl,
          splitsInto_iff.mpr (by decide), rfl, rfl, rfl⟩ .nil))
      ((window_ofBytes _ {}).trans (List.append_nil _).symm)
    exact hfilled

end Catalog

end ProtoWire
