import ProtoWire.Proofs.Consumed
import ProtoWire.Proofs.Nested

/-! # Bytes cut short

Every length is compared with the bytes before the innermost end ahead of all that is read inside,
so a read of which only the first bytes are there either does not reach the missing ones or fails
for want of them. Records are read up to where the bytes end; a message cut between two of its
records is shorter, and one cut inside a record is refused as truncated.
-/

namespace ProtoWire

/-! ## Where bytes may be cut
-/

/-- Bytes that end between two records, or before the first or behind the last. -/
def BetweenRecords (kept missing : Bytes) : Prop :=
  ∃ before after, SplitsInto kept before ∧ SplitsInto missing after

/-- Bytes that end inside a record, behind its first byte and before its last. -/
def InsideRecord (kept missing : Bytes) : Prop :=
  ∃ (front part others back : Bytes) (before after : List UnknownField) (field : UnknownField),
    kept = front ++ part ∧ missing = others ++ back ∧ part ≠ [] ∧ others ≠ [] ∧
      SplitsInto front before ∧ field.Frames (part ++ others) ∧ SplitsInto back after

/-- Records are cut between two of them or inside one. -/
theorem between_or_inside {kept missing : Bytes} {records : List UnknownField}
    (hrecords : SplitsInto (kept ++ missing) records) :
    BetweenRecords kept missing ∨ InsideRecord kept missing := by
  generalize hbytes : kept ++ missing = bytes at hrecords
  induction hrecords generalizing kept with
  | nil =>
      obtain ⟨rfl, rfl⟩ := List.append_eq_nil_iff.mp hbytes
      exact .inl ⟨[], [], .nil, .nil⟩
  | cons front rest field fields hframes hrest ih =>
      rcases List.append_eq_append_iff.mp hbytes with ⟨others, rfl, rfl⟩ | ⟨later, rfl, rfl⟩
      -- The first record reaches up to the cut at least.
      · by_cases hkept : kept = []
        · subst hkept
          exact .inl ⟨[], field :: fields, .nil, .cons others rest field fields hframes hrest⟩
        · by_cases hothers : others = []
          · subst hothers
            rw [List.append_nil] at hframes
            exact .inl ⟨[field], fields, List.append_nil kept ▸ .cons kept [] field [] hframes .nil,
              hrest⟩
          · exact .inr ⟨[], kept, others, rest, [], fields, field, rfl, rfl, hkept, hothers, .nil,
              hframes, hrest⟩
      · rcases ih rfl with ⟨before, after, hbefore, hafter⟩ |
          ⟨front', part, others, back, before, after, cut, rfl, hmissing, hpart, hothers, hbefore,
            hcut, hafter⟩
        · exact .inl ⟨field :: before, after, .cons front later field before hframes hbefore, hafter⟩
        · exact .inr ⟨front ++ front', part, others, back, field :: before, after, cut,
            (List.append_assoc ..).symm, hmissing, hpart, hothers,
            .cons front front' field before hframes hbefore, hcut, hafter⟩

/-- What ends inside a record is no sequence of records. -/
theorem InsideRecord.split_eq_none {kept missing : Bytes} (hinside : InsideRecord kept missing) :
    Bytes.split? UnknownField.cut? kept = none := by
  obtain ⟨front, part, others, back, before, after, field, rfl, -, hpart, hothers, hfront, hframes,
    -⟩ := hinside
  by_contra hsome
  obtain ⟨records, hsplit⟩ := Option.ne_none_iff_exists'.mp hsome
  obtain ⟨rest, hrest⟩ := hfront.of_append (splitsInto_iff.mpr hsplit)
  -- The record that the part begins with would be the one that it is cut from.
  rw [splitsInto_iff, Bytes.split_of_ne_nil UnknownField.cuts hpart] at hrest
  simp only [Option.bind_eq_some_iff] at hrest
  obtain ⟨⟨found, later⟩, hcut, -⟩ := hrest
  obtain ⟨whole, rfl, hwhole⟩ := UnknownField.cut_eq_some_iff.mp hcut
  have hshort : UnknownField.cut? (whole ++ later ++ others) = some (found, later ++ others) :=
    UnknownField.cut_eq_some_iff.mpr ⟨whole, List.append_assoc .., hwhole⟩
  have hlong : UnknownField.cut? (whole ++ later ++ others) = some (field, []) :=
    UnknownField.cut_eq_some_iff.mpr ⟨_, (List.append_nil _).symm, hframes⟩
  rw [hshort] at hlong
  obtain ⟨-, hnothing⟩ := Prod.mk.inj (Option.some.inj hlong)
  exact hothers (List.append_eq_nil_iff.mp hnothing).2

/-- A varint of which the last bytes are missing is refused for want of the next one. -/
theorem Varint.decode_cut {bytes kept : Bytes} {value : UInt64} {count : Nat}
    (hkept : kept <+: bytes) (hdecode : decode bytes = .ok (value, count)) :
    (count ≤ kept.length ∧ decode kept = .ok (value, count)) ∨
      decode kept = .error (.truncated (kept.length + 1) kept.length) := by
  obtain ⟨missing, rfl⟩ := hkept
  by_cases hcount : count ≤ kept.length
  · have hfront := decode_take_append hdecode (kept.drop count)
    rw [List.take_append_of_le_length hcount, List.take_append_drop] at hfront
    exact .inl ⟨hcount, hfront⟩
  · right
    obtain ⟨n, hgroups, _⟩ := decode_eq_ok_iff.mp hdecode
    have hmost := (decodeGroups_count hgroups).2.2
    unfold decode
    cases hfound : decodeGroups? maxLength kept with
    | none => rw [if_neg (by omega)]
    | some found =>
        have hshort := (decodeGroups_count hfound).2.1
        have hwhole := decodeGroups_append hfound (kept.drop found.2 ++ missing)
        rw [← List.append_assoc, List.take_append_drop, hgroups] at hwhole
        cases hwhole
        exact absurd hshort hcount

namespace Reader

variable {α β σ : Type} {levels : Nat} {first second : Reader}

/-! ## Reads cut short -/

/-- Readers with the same number of levels left, of which the second is before the first few of the
bytes that the first is before. -/
structure Shorter (levels : Nat) (first second : Reader) : Prop where
  left : Sound levels first
  right : Sound levels second
  begins : second.window <+: first.window

/-- A failure for want of bytes. -/
def IsTruncation (result : EStateM.Result DecodeError Reader α) : Prop :=
  ∃ needed remaining last, remaining < needed ∧
    result = .error (.truncated needed remaining) last

/-- What becomes of a result of the first reader at the second one: a success is repeated where all
bytes that it took are there, and otherwise fails for want of bytes. -/
def CutShort (first second : Reader) :
    EStateM.Result DecodeError Reader α → EStateM.Result DecodeError Reader α → Prop
  | .ok value after, result =>
      (∃ count tag, count ≤ second.window.length ∧ after = first.moved count tag ∧
        result = .ok value (second.moved count tag)) ∨ IsTruncation result
  | .error .., _ => True

/-- A read that is repeated where all bytes that it took are there, and otherwise fails for want of
bytes. -/
def Truncates (read : ReaderM α) : Prop :=
  ∀ levels first second, Shorter levels first second → first.lastTag = second.lastTag →
    CutShort first second (read first) (read second)

theorem Shorter.moved (hshorter : Shorter levels first second) {count : Nat}
    (hcount : count ≤ second.window.length) (tag : UInt32) :
    Shorter levels (first.moved count tag) (second.moved count tag) where
  left := hshorter.left.moved (hcount.trans hshorter.begins.length_le) tag
  right := hshorter.right.moved hcount tag
  begins := by
    rw [window_moved hshorter.left (hcount.trans hshorter.begins.length_le),
      window_moved hshorter.right hcount]
    exact hshorter.begins.drop count

theorem CutShort.of_truncation {result result' : EStateM.Result DecodeError Reader α}
    (htruncation : IsTruncation result') : CutShort first second result result' := by
  cases result with
  | ok value after => exact .inr htruncation
  | error error after => trivial

theorem CutShort.of_moved (hshorter : Shorter levels first second) {count : Nat} {tag : UInt32}
    (hcount : count ≤ second.window.length) {result result' : EStateM.Result DecodeError Reader α}
    (hcut : CutShort (first.moved count tag) (second.moved count tag) result result') :
    CutShort first second result result' := by
  cases result with
  | error error after => trivial
  | ok value after =>
      rcases hcut with ⟨further, tag', hfurther, rfl, rfl⟩ | htruncation
      · rw [window_moved hshorter.right hcount, List.length_drop] at hfurther
        exact .inl ⟨count + further, tag', by omega, moved_moved .., by rw [moved_moved]⟩
      · exact .inr htruncation

theorem IsTruncation.bind {read : ReaderM α} (htruncation : IsTruncation (read second))
    (next : α → ReaderM β) : IsTruncation ((read >>= next) second) := by
  obtain ⟨needed, remaining, last, hless, hread⟩ := htruncation
  exact ⟨needed, remaining, last, hless, bind_error hread next⟩

theorem CutShort.bind {read : ReaderM α} {next : α → ReaderM β}
    (hshorter : Shorter levels first second)
    (hread : CutShort first second (read first) (read second))
    (hnext : ∀ value, Truncates (next value)) :
    CutShort first second ((read >>= next) first) ((read >>= next) second) := by
  cases hfirst : read first with
  | error error after =>
      rw [bind_error hfirst]
      trivial
  | ok value after =>
      rw [hfirst] at hread
      rcases hread with ⟨count, tag, hcount, rfl, hsecond⟩ | htruncation
      · rw [bind_ok hfirst, bind_ok hsecond]
        exact (hnext value levels _ _ (hshorter.moved hcount tag) rfl).of_moved hshorter hcount
      · exact .of_truncation (htruncation.bind next)

theorem Truncates.bind {read : ReaderM α} {next : α → ReaderM β} (hread : Truncates read)
    (hnext : ∀ value, Truncates (next value)) : Truncates (read >>= next) :=
  fun levels first second hshorter htag =>
    (hread levels first second hshorter htag).bind hshorter hnext

/-! ## Single reads -/

theorem truncates_pure (value : α) : Truncates (Pure.pure value : ReaderM α) :=
  fun _ first _ _ htag => .inl ⟨0, first.lastTag, Nat.zero_le _, rfl, by rw [htag]; rfl⟩

theorem truncates_throw (error : DecodeError) : Truncates (throw error : ReaderM α) :=
  fun _ _ _ _ _ => trivial

theorem truncates_lastTag (value : α) (tag : UInt32) : Truncates (do
    modify fun after => { after with lastTag := tag }
    return value : ReaderM α) :=
  fun _ _ _ _ _ => .inl ⟨0, tag, Nat.zero_le _, rfl, rfl⟩

theorem cutShort_readVarint64 (hshorter : Shorter levels first second)
    (htag : first.lastTag = second.lastTag) :
    CutShort first second (readVarint64 first) (readVarint64 second) := by
  rw [readVarint64, readVarint64, ahead_eq_take hshorter.left, ahead_eq_take hshorter.right,
    Varint.decode_take]
  cases hdecode : Varint.decode first.window with
  | error error => trivial
  | ok found =>
      obtain ⟨value, count⟩ := found
      have hkept : second.window.take Varint.maxLength <+: first.window :=
        (List.take_prefix _ _).trans hshorter.begins
      rcases Varint.decode_cut hkept hdecode with ⟨hcount, hsecond⟩ | hsecond
      · rw [hsecond]
        rw [List.length_take] at hcount
        exact .inl ⟨count, first.lastTag, by omega, rfl, by rw [htag]; rfl⟩
      · rw [hsecond]
        exact .inr ⟨_, _, second, Nat.lt_succ_self _, rfl⟩

theorem truncates_readVarint64 : Truncates readVarint64 :=
  fun _ _ _ hshorter htag => cutShort_readVarint64 hshorter htag

theorem truncates_readExactly (count : Nat) : Truncates (readExactly count) := by
  intro levels first second hshorter htag
  rw [readExactly, readExactly, ← length_window hshorter.left, ← length_window hshorter.right,
    ahead_eq_take hshorter.left, ahead_eq_take hshorter.right]
  by_cases hcount : second.window.length < count
  · rw [if_pos hcount]
    exact .of_truncation ⟨_, _, _, hcount, rfl⟩
  · have hlength := hshorter.begins.length_le
    rw [if_neg hcount, if_neg (by omega)]
    obtain ⟨missing, hmissing⟩ := hshorter.begins
    rw [← hmissing, List.take_append_of_le_length (not_lt.mp hcount)]
    exact .inl ⟨count, first.lastTag, not_lt.mp hcount, rfl, by rw [htag]; rfl⟩

theorem truncates_skipExactly (count : Nat) : Truncates (skipExactly count) := by
  intro levels first second hshorter htag
  rw [skipExactly, skipExactly, ← length_window hshorter.left, ← length_window hshorter.right]
  by_cases hcount : second.window.length < count
  · rw [if_pos hcount]
    exact .of_truncation ⟨_, _, _, hcount, rfl⟩
  · have hlength := hshorter.begins.length_le
    rw [if_neg hcount, if_neg (by omega)]
    exact .inl ⟨count, first.lastTag, not_lt.mp hcount, rfl, by rw [htag]; rfl⟩

/-- The length is compared first, so whatever is read behind it has all its bytes. -/
theorem truncates_within {body : ReaderM α} (length : Nat) (hbody : Agrees body) :
    Truncates (within length body) := by
  intro levels first second hshorter htag
  have hfirst := pushLimit_eq hshorter.left length
  have hsecond := pushLimit_eq hshorter.right length
  by_cases hroom : length ≤ second.window.length
  · have hroom' := hroom.trans hshorter.begins.length_le
    have htwin : Twin levels (first.entered length) (second.entered length) := by
      refine ⟨hshorter.left.entered hroom', hshorter.right.entered hroom, ?_⟩
      obtain ⟨missing, hmissing⟩ := hshorter.begins
      rw [window_entered hshorter.left hroom', window_entered hshorter.right hroom, ← hmissing,
        List.take_append_of_le_length hroom]
    have hinner := hbody levels _ _ htwin htag
    rw [if_pos hroom'] at hfirst
    rw [if_pos hroom] at hsecond
    rw [within, bind_ok hfirst, bind_ok hsecond]
    cases hread : body (first.entered length) <;> cases hread' : body (second.entered length) <;>
      rw [hread, hread'] at hinner
    case ok.ok value after value' after' =>
      obtain ⟨rfl, count, tag, hcount, rfl, rfl⟩ := hinner
      rw [window_entered hshorter.left hroom', List.length_take] at hcount
      rw [bind_ok hread, bind_ok hread']
      exact .inl ⟨count, tag, by omega, rfl, rfl⟩
    case error.error error after error' after' =>
      rw [bind_error hread]
      trivial
    all_goals exact hinner.elim
  · rw [if_neg hroom] at hsecond
    have htruncation : IsTruncation (pushLimit length second) := by
      rw [← length_window hshorter.right] at hsecond
      exact ⟨_, _, _, not_le.mp hroom, hsecond⟩
    exact .of_truncation (htruncation.bind _)

theorem truncates_readMessage {body : ReaderM α} (hbody : Balanced body) :
    Truncates (readMessage body) := by
  rw [readMessage_eq]
  refine Truncates.bind (truncates_readVarint64.bind fun _ => truncates_pure _) fun length => ?_
  intro levels first second hshorter htag
  have hdeeper := truncates_within length (Balanced.deeper hbody).agrees
  rw [readMessageOf_eq]
  dsimp only
  rw [hshorter.left.levels_eq, hshorter.right.levels_eq]
  cases levels with
  | zero => trivial
  | succ levels =>
      simp only [readNested, ← htag]
      exact (hdeeper.bind fun message => truncates_lastTag message first.lastTag) _ _ _ hshorter htag

/-- Reads that tell where they end are never shortened. -/
theorem Modular.truncates {mentioned : String → Prop}
    {read : (String → ReaderM Message) → ReaderM α} (hread : Modular mentioned read)
    {body : String → ReaderM Message} (hbody : ∀ name, Balanced (body name)) :
    Truncates (read body) := by
  induction hread with
  | pure value => exact truncates_pure value
  | fail error _ _ => exact truncates_throw error
  | bind _ _ ihread ihnext => exact ihread.bind ihnext
  | varint => exact truncates_readVarint64
  | exactly count => exact truncates_readExactly count
  | skip count => exact truncates_skipExactly count
  | message name _ => exact truncates_readMessage (hbody name)
  | records length hrecord state _ =>
      have hrecords := Balanced.records (fun tag state => (hrecord tag state).balanced hbody) state
      exact truncates_within length hrecords.agrees
  | elements length hread hadvances _ =>
      have helements := Balanced.elements (hread.balanced hbody) (hadvances body)
      exact truncates_within length helements.agrees
  | byTag read _ ih =>
      intro levels first second hshorter htag
      dsimp only
      rw [← htag]
      exact ih first.lastTag levels first second hshorter htag

/-! ## Records -/

theorem Shorter.before_end (hshorter : Shorter levels first second)
    (hbefore : second.position < second.limit) : first.position < first.limit := by
  have hlength := hshorter.begins.length_le
  rw [length_window hshorter.left, length_window hshorter.right, remaining, remaining] at hlength
  omega

theorem cutShort_readTag (hshorter : Shorter levels first second)
    (htag : first.lastTag = second.lastTag) (hbefore : second.position < second.limit) :
    CutShort first second (readTag first) (readTag second) := by
  have haccept : ∀ raw, Truncates (acceptTag raw) := by
    intro raw levels first second _ _
    rw [acceptTag, acceptTag]
    split
    · trivial
    · cases Tag.split raw.toUInt32 with
      | error error => trivial
      | ok key => exact .inl ⟨0, raw.toUInt32, Nat.zero_le _, rfl, rfl⟩
  rw [readTag_before_end (hshorter.before_end hbefore), readTag_before_end hbefore]
  exact (truncates_readVarint64.bind haccept) levels first second hshorter htag

/-- Records of which the last bytes are missing are read up to where the bytes end, unless bytes are
missing there. -/
theorem readRecords_cut {record : UInt32 → σ → ReaderM σ}
    (hrecord : ∀ tag state, Truncates (record tag state)) {fuel fuel' : Nat} {state value : σ}
    {after : Reader} (hshorter : Shorter levels first second)
    (htag : first.lastTag = second.lastTag) (hfuel : first.window.length < fuel)
    (hfuel' : second.window.length < fuel')
    (hok : readRecords record fuel state first = .ok value after) :
    (∃ value' last, readRecords record fuel' state second = .ok value' last) ∨
      IsTruncation (readRecords record fuel' state second) := by
  induction fuel' generalizing fuel state first second with
  | zero => exact absurd hfuel' (Nat.not_lt_zero _)
  | succ fuel' ih =>
      by_cases hend : second.limit ≤ second.position
      · refine .inl ⟨state, { second with lastTag := 0 }, ?_⟩
        rw [readRecords, bind_ok (readTag_past_end hend)]
        rfl
      · have hbefore := not_le.mp hend
        obtain ⟨fuel, rfl⟩ := Nat.exists_eq_succ_of_ne_zero (Nat.ne_zero_of_lt hfuel)
        rw [readRecords] at hok ⊢
        obtain ⟨tag, middle, hfirst, hok⟩ := ok_of_bind hok
        have htakes := readTag_ok hfirst
        have hkey := cutShort_readTag hshorter htag hbefore
        rw [hfirst] at hkey
        rcases hkey with ⟨count, tag', hcount, rfl, hsecond⟩ | htruncation
        · by_cases hzero : tag = 0
          · rw [if_pos hzero] at htakes
            exact absurd (hshorter.before_end hbefore) (not_lt.mpr htakes)
          · rw [if_neg hzero] at htakes hok
            rw [bind_ok hsecond, if_neg hzero]
            obtain ⟨state', last, hrest, hok⟩ := ok_of_bind hok
            have hmiddle := hshorter.moved hcount tag'
            have hpayload := hrecord tag state levels _ _ hmiddle rfl
            rw [hrest] at hpayload
            rcases hpayload with ⟨further, tag'', hfurther, rfl, hrest'⟩ | htruncation
            · rw [bind_ok hrest']
              -- The tag took a byte of both readers, so there is fuel for the rest.
              have hpositive : 0 < count := by simpa [Reader.moved] using htakes
              have hlength := hshorter.begins.length_le
              have hfurther' := hfurther.trans hmiddle.begins.length_le
              refine ih (hmiddle.moved hfurther tag'') rfl ?_ ?_ hok
              · rw [window_moved hmiddle.left hfurther', List.length_drop,
                  window_moved hshorter.left (hcount.trans hlength), List.length_drop]
                omega
              · rw [window_moved hmiddle.right hfurther, List.length_drop,
                  window_moved hshorter.right hcount, List.length_drop]
                omega
            · exact .inr (htruncation.bind _)
        · exact .inr (htruncation.bind _)

theorem readToLimit_cut {record : UInt32 → σ → ReaderM σ}
    (hrecord : ∀ tag state, Truncates (record tag state)) {state value : σ} {after : Reader}
    (hshorter : Shorter levels first second) (htag : first.lastTag = second.lastTag)
    (hok : readToLimit record state first = .ok value after) :
    (∃ value' last, readToLimit record state second = .ok value' last) ∨
      IsTruncation (readToLimit record state second) := by
  refine readRecords_cut hrecord hshorter htag ?_ ?_ hok
  · exact Nat.lt_succ_of_le (length_window hshorter.left).le
  · exact Nat.lt_succ_of_le (length_window hshorter.right).le

end Reader

namespace Catalog

open Reader

variable {catalog : Catalog} {name : String} {config : ReaderConfig}

/-! ## Messages -/

/-- Reads all records of a message into the slots of its entries. -/
def readGathered (catalog : Catalog) (name : String) : ReaderM Gathered :=
  readToLimit ((catalog.schema name).readRecord catalog catalog.readBody)
    ⟨(catalog.schema name).entries.map fun _ => none, .empty⟩

/-- The message of gathered slots, unless one that is required is empty. -/
def finishGathered (catalog : Catalog) (name : String) (gathered : Gathered) :
    Except DecodeError Message :=
  (finishEntries catalog (catalog.schema name).entries gathered.slots).map fun contents =>
    .mk contents gathered.unknown .empty

/-- Decoding reads all records and finishes what was gathered of them. -/
theorem decode_eq (catalog : Catalog) (name : String) (bytes : Bytes) (config : ReaderConfig) :
    catalog.decode name bytes config =
      (decodeWith (catalog.readGathered name) bytes config).bind (catalog.finishGathered name) := by
  rw [decode, decodeWith, decodeWith, readBody_eq catalog name (bounded_ofBytes bytes config),
    MessageSchema.readBody, ← readGathered]
  cases hread : catalog.readGathered name (.ofBytes bytes config) with
  | error error after => rw [bind_error hread, Except.bind]
  | ok gathered after =>
      rw [bind_ok hread, Except.bind, finishGathered]
      cases finishEntries catalog (catalog.schema name).entries gathered.slots <;> rfl

theorem finishGathered_error {gathered : Gathered} {error : DecodeError}
    (hfinish : catalog.finishGathered name gathered = .error error) :
    ∃ field, error = .missingRequiredField field := by
  rw [finishGathered] at hfinish
  cases hentries : finishEntries catalog (catalog.schema name).entries gathered.slots with
  | ok contents =>
      rw [hentries] at hfinish
      cases hfinish
  | error first =>
      rw [hentries] at hfinish
      cases hfinish
      obtain ⟨entry, -, hmissing⟩ := finishEntries_error hentries
      exact ⟨entry.name, hmissing⟩

/-- Records can be read one by one exactly if the bytes split into records that can be gathered one
after the other. -/
theorem readGathered_follows (hnumbered : catalog.Numbered) (name : String) (levels : Nat) :
    Follows levels (catalog.readGathered name) fun bytes =>
      (foldRecords? ((catalog.schema name).step catalog (catalog.nested? levels))
        ⟨(catalog.schema name).entries.map fun _ => none, .empty⟩ bytes).map (·, []) :=
  follows_readToLimit (followsRecord_message catalog (followsMessages_readBody hnumbered levels)
    (hnumbered.schema name)) _

/-- The first records of a byte string can be gathered if all of them can. -/
theorem isSome_foldRecords {σ : Type} {step : σ → UnknownField → Option σ} {state : σ}
    {kept missing : Bytes} (hbetween : BetweenRecords kept missing)
    (hwhole : (foldRecords? step state (kept ++ missing)).isSome = true) :
    (foldRecords? step state kept).isSome = true := by
  obtain ⟨before, after, hbefore, hafter⟩ := hbetween
  rw [foldRecords?, splitsInto_iff.mp (hbefore.append hafter), Option.bind_some,
    List.foldlM_append] at hwhole
  rw [foldRecords?, splitsInto_iff.mp hbefore, Option.bind_some]
  exact Option.isSome_of_isSome_bind hwhole

/-- The first few of the bytes from which all records can be gathered: their own records can be
gathered, or bytes are missing. -/
theorem readGathered_cut {kept missing : Bytes} {gathered : Gathered} {after : Reader}
    (hwhole : catalog.readGathered name (.ofBytes (kept ++ missing) config) = .ok gathered after) :
    (∃ gathered' last, catalog.readGathered name (.ofBytes kept config) = .ok gathered' last) ∨
      IsTruncation (catalog.readGathered name (.ofBytes kept config)) := by
  have hshorter : Shorter config.recursionLimit (.ofBytes (kept ++ missing) config)
      (.ofBytes kept config) := by
    refine ⟨sound_ofBytes _ _, sound_ofBytes _ _, ?_⟩
    rw [window_ofBytes, window_ofBytes]
    exact List.prefix_append kept missing
  refine readToLimit_cut (fun tag state => ?_) hshorter rfl hwhole
  exact (modular_readRecord catalog _ tag state).truncates (balanced_catalogBody catalog)

/-- Truncation is always noticed. An accepted input can be cut between two of its records or inside
one. What is left of it in the first case is accepted or lacks a required field; in the second case
it is refused as truncated, with more bytes needed than there are. -/
theorem truncation_noticed (hnumbered : catalog.Numbered) {kept missing : Bytes} {message : Message}
    (hwhole : catalog.decode name (kept ++ missing) config = .ok message) :
    (BetweenRecords kept missing ∨ InsideRecord kept missing) ∧
      (BetweenRecords kept missing →
        (∃ message', catalog.decode name kept config = .ok message') ∨
          ∃ field, catalog.decode name kept config = .error (.missingRequiredField field)) ∧
      (InsideRecord kept missing → ∃ needed remaining, remaining < needed ∧
        catalog.decode name kept config = .error (.truncated needed remaining)) := by
  have hfollows := fun bytes => readGathered_follows hnumbered name config.recursionLimit _
    (sound_ofBytes bytes config)
  simp only [window_ofBytes] at hfollows
  rw [decode_eq, decodeWith] at hwhole
  rw [decode_eq, decodeWith]
  cases hread : catalog.readGathered name (.ofBytes (kept ++ missing) config) with
  | error error after =>
      rw [hread] at hwhole
      cases hwhole
  | ok gathered after =>
      have hfold := ((hfollows (kept ++ missing)).at_end hread).1
      refine ⟨?_, fun hbetween => ?_, fun hinside => ?_⟩
      · obtain ⟨records, hsplit, -⟩ := Option.bind_eq_some_iff.mp hfold
        exact between_or_inside (splitsInto_iff.mpr hsplit)
      · have hkept := isSome_foldRecords hbetween (Option.isSome_of_eq_some hfold)
        obtain ⟨gathered', hkept⟩ := Option.isSome_iff_exists.mp hkept
        have hanswers := hfollows kept
        rw [hkept] at hanswers
        obtain ⟨-, tag, hread'⟩ := hanswers
        rw [hread', Except.bind]
        cases hfinish : catalog.finishGathered name gathered' with
        | ok message' => exact .inl ⟨message', rfl⟩
        | error error =>
            obtain ⟨field, rfl⟩ := finishGathered_error hfinish
            exact .inr ⟨field, rfl⟩
      · have hanswers := hfollows kept
        rw [foldRecords?, hinside.split_eq_none] at hanswers
        obtain ⟨error, last, herror⟩ := hanswers
        rcases readGathered_cut hread with ⟨gathered', last', hread'⟩ | htruncation
        · rw [herror] at hread'
          cases hread'
        · obtain ⟨needed, remaining, last', hless, hread'⟩ := htruncation
          rw [hread']
          exact ⟨needed, remaining, hless, rfl⟩

/-- A frame without its sequence number, and one that ends in the middle of its header. -/
theorem frame_truncation_noticed :
    let frames : Catalog := ⟨[("Header", Samples.header), ("Frame", Samples.frame)]⟩
    let header : Message :=
      .mk [.singular (.scalar (.uint32 7)), .singular (.scalar (.string ""))] .empty .empty
    let frame : Message := .mk [.singular (.message header), .singular (.scalar (.uint32 5)),
      .singular .absent, .singular .absent] .empty .empty
    frames.Numbered ∧ frames.decode "Frame" [10, 2, 8, 7, 16, 5] {} = .ok frame ∧
      ((∃ message, frames.decode "Frame" [10, 2, 8, 7] {} = .ok message) ∨
        ∃ field, frames.decode "Frame" [10, 2, 8, 7] {} = .error (.missingRequiredField field)) ∧
      ∃ needed remaining, remaining < needed ∧
        frames.decode "Frame" [10, 2, 8] {} = .error (.truncated needed remaining) := by
  intro frames header frame
  have hnumbered : frames.Numbered := by decide
  have hwhole : frames.decode "Frame" [10, 2, 8, 7, 16, 5] {} = .ok frame := by
    cbv
  have hbetween : BetweenRecords [10, 2, 8, 7] [16, 5] :=
    ⟨[⟨1, .lengthDelimited [8, 7]⟩], [⟨2, .varint 5⟩], splitsInto_iff.mpr (by decide),
      splitsInto_iff.mpr (by decide)⟩
  obtain ⟨-, hshorter, -⟩ := @truncation_noticed frames "Frame" {} hnumbered [10, 2, 8, 7] [16, 5]
    frame hwhole
  obtain ⟨hcut, -, htruncated⟩ := @truncation_noticed frames "Frame" {} hnumbered [10, 2, 8]
    [7, 16, 5] frame hwhole
  have hinside : InsideRecord [10, 2, 8] [7, 16, 5] := by
    refine hcut.resolve_left fun hbetween => ?_
    obtain ⟨before, after, hbefore, -⟩ := hbetween
    have hnone : Bytes.split? UnknownField.cut? [10, 2, 8] = none := by decide
    rw [splitsInto_iff, hnone] at hbefore
    cases hbefore
  exact ⟨hnumbered, hwhole, hshorter hbetween, htruncated hinside⟩

end Catalog

end ProtoWire
