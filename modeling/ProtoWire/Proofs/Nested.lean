import ProtoWire.Proofs.Bounds
import ProtoWire.Proofs.Slices

/-! # Bodies of nested messages

What is read around nested messages depends on how their bodies are read, but only on those bodies
that may lie in what a reader has ahead: one message deeper, with fewer bytes and within the recursion
limit. Two such reads go in step when the bodies inside do, also where the second reader may go
deeper, until the first one meets its limit.
-/

namespace ProtoWire

namespace Reader

variable {α β σ : Type} {own limit : Nat} {reader : Reader}
  {excused : DecodeError → Prop} {body body' : String → ReaderM Message}

/-! ## Moves -/

/-- A balanced read that succeeds moves within the window and changes the last tag at most. -/
theorem Balanced.moves {read : ReaderM α} (hread : Balanced read) (hbounded : Bounded reader)
    {value : α} {after : Reader} (hok : read reader = .ok value after) :
    ∃ count tag, count ≤ reader.window.length ∧ after = reader.moved count tag := by
  have halike := hread.agrees _ reader reader ⟨hbounded.sound, hbounded.sound, rfl⟩ rfl
  rw [hok] at halike
  obtain ⟨-, count, tag, hcount, rfl, -⟩ := halike
  exact ⟨count, tag, hcount, rfl⟩

theorem readTag_moves (hbounded : Bounded reader) {tag : UInt32} {after : Reader}
    (hok : readTag reader = .ok tag after) :
    ∃ count tag', count ≤ reader.window.length ∧ after = reader.moved count tag' := by
  have halike : Alike reader reader (readTag reader) (readTag reader) :=
    alike_readTag ⟨hbounded.sound, hbounded.sound, rfl⟩
  rw [hok] at halike
  obtain ⟨-, count, tag', hcount, rfl, -⟩ := halike
  exact ⟨count, tag', hcount, rfl⟩

theorem Bounded.moved (hbounded : Bounded reader) {count : Nat}
    (hcount : count ≤ reader.window.length) (tag : UInt32) : Bounded (reader.moved count tag) := by
  rw [length_window hbounded.sound] at hcount
  exact ((hbounded.kept_skip hcount).bounded.kept_lastTag tag).bounded

theorem Bounded.entered (hbounded : Bounded reader) {length : Nat}
    (hlength : length ≤ reader.window.length) : Bounded (reader.entered length) := by
  rw [length_window hbounded.sound] at hlength
  exact (hbounded.kept_entered hlength).bounded

@[simp]
theorem remaining_moved (count : Nat) (tag : UInt32) :
    (reader.moved count tag).remaining = reader.remaining - count :=
  (Nat.sub_sub _ _ _).symm

@[simp]
theorem remaining_entered (length : Nat) : (reader.entered length).remaining = length :=
  Nat.add_sub_cancel_left _ _

/-- A reader at the body of a message that may be nested in what another reader has ahead. -/
structure Inside (reader inner : Reader) : Prop where
  bounded : inner.Bounded
  config_eq : inner.config = reader.config
  depth_eq : inner.depth = reader.depth + 1
  depth_le : inner.depth ≤ inner.config.recursionLimit
  remaining_lt : inner.remaining < reader.remaining

namespace Inside

variable {inner : Reader}

theorem of_moved {count : Nat} {tag : UInt32} (hinside : Inside (reader.moved count tag) inner) :
    Inside reader inner where
  bounded := hinside.bounded
  config_eq := hinside.config_eq
  depth_eq := hinside.depth_eq
  depth_le := hinside.depth_le
  remaining_lt := hinside.remaining_lt.trans_le (by simp)

theorem of_entered (hbounded : Bounded reader) {length : Nat}
    (hlength : length ≤ reader.window.length) (hinside : Inside (reader.entered length) inner) :
    Inside reader inner where
  bounded := hinside.bounded
  config_eq := hinside.config_eq
  depth_eq := hinside.depth_eq
  depth_le := hinside.depth_le
  remaining_lt := by
    rw [length_window hbounded.sound] at hlength
    exact hinside.remaining_lt.trans_le (by simpa using hlength)

/-- The payload behind the length of a message is inside, where messages may nest deeper. -/
theorem of_length (hbounded : Bounded reader) {count length : Nat} {tag : UInt32}
    (hcount : 0 < count) (hwindow : count ≤ reader.window.length)
    (hlength : length ≤ (reader.moved count tag).window.length)
    (hdeep : reader.depth < reader.config.recursionLimit) :
    Inside reader { (reader.moved count tag).entered length with depth := reader.depth + 1 } := by
  have hmiddle := hbounded.moved hwindow tag
  have hentered := hmiddle.entered hlength
  rw [length_window hmiddle.sound, remaining_moved] at hlength
  rw [length_window hbounded.sound] at hwindow
  refine ⟨⟨hentered.position_le, hentered.nested, hentered.inside⟩, rfl, rfl, hdeep, ?_⟩
  have hremaining : ((reader.moved count tag).entered length).remaining < reader.remaining := by
    rw [remaining_entered]
    omega
  exact hremaining

end Inside

/-! ## Readers in step -/

/-- The reader with another recursion limit. -/
def allowing (limit : Nat) (reader : Reader) : Reader :=
  { reader with config := { reader.config with recursionLimit := limit } }

/-- A result repeated where another recursion limit holds, unless it is an excused error. -/
def Repeated (limit : Nat) (excused : DecodeError → Prop) :
    EStateM.Result DecodeError Reader α → EStateM.Result DecodeError Reader α → Prop
  | .ok value after, result => result = .ok value (after.allowing limit)
  | .error error after, result => excused error ∨ result = .error error (after.allowing limit)

namespace Repeated

theorem bind {read read' : ReaderM α} {next next' : α → ReaderM β}
    (hread : Repeated limit excused (read reader) (read' (reader.allowing limit)))
    (hnext : ∀ value after, read reader = .ok value after →
      Repeated limit excused (next value after) (next' value (after.allowing limit))) :
    Repeated limit excused ((read >>= next) reader) ((read' >>= next') (reader.allowing limit)) := by
  cases hok : read reader with
  | ok value after =>
      rw [hok] at hread
      rw [bind_ok hok, bind_ok hread]
      exact hnext value after hok
  | error error after =>
      rw [hok] at hread
      rw [bind_error hok]
      rcases hread with hexcused | hread
      · exact .inl hexcused
      · exact .inr (bind_error hread next')

theorem ite {condition : Prop} [Decidable condition]
    {first second first' second' : EStateM.Result DecodeError Reader α}
    (hfirst : condition → Repeated limit excused first first')
    (hsecond : ¬ condition → Repeated limit excused second second') :
    Repeated limit excused (if condition then first else second)
      (if condition then first' else second') := by
  by_cases hcondition : condition
  · simpa only [if_pos hcondition] using hfirst hcondition
  · simpa only [if_neg hcondition] using hsecond hcondition

end Repeated

/-- A reader within its bounds and under its own limit, ahead of which the bodies of all messages are
repeated. -/
structure Ready (own limit : Nat) (excused : DecodeError → Prop)
    (body body' : String → ReaderM Message) (reader : Reader) : Prop where
  bounded : reader.Bounded
  limit_eq : reader.config.recursionLimit = own
  inside : ∀ name inner, Inside reader inner →
    Repeated limit excused (body name inner) (body' name (inner.allowing limit))

theorem Ready.moved (hready : Ready own limit excused body body' reader) {count : Nat}
    (hcount : count ≤ reader.window.length) (tag : UInt32) :
    Ready own limit excused body body' (reader.moved count tag) where
  bounded := hready.bounded.moved hcount tag
  limit_eq := hready.limit_eq
  inside name inner hinner := hready.inside name inner hinner.of_moved

theorem Ready.entered (hready : Ready own limit excused body body' reader) {length : Nat}
    (hlength : length ≤ reader.window.length) :
    Ready own limit excused body body' (reader.entered length) where
  bounded := hready.bounded.entered hlength
  limit_eq := hready.limit_eq
  inside name inner hinner := hready.inside name inner (hinner.of_entered hready.bounded hlength)

/-- Two reads that go in step wherever the bodies of nested messages do. -/
def InStep (own limit : Nat) (excused : DecodeError → Prop) (body body' : String → ReaderM Message)
    (read read' : ReaderM α) : Prop :=
  ∀ reader, Ready own limit excused body body' reader →
    Repeated limit excused (read reader) (read' (reader.allowing limit))

theorem InStep.bind {read read' : ReaderM α} {next next' : α → ReaderM β}
    (hbalanced : Balanced read) (hread : InStep own limit excused body body' read read')
    (hnext : ∀ value, InStep own limit excused body body' (next value) (next' value)) :
    InStep own limit excused body body' (read >>= next) (read' >>= next') := by
  intro reader hready
  refine (hread reader hready).bind fun value after hok => ?_
  obtain ⟨count, tag, hcount, rfl⟩ := hbalanced.moves hready.bounded hok
  exact hnext value _ (hready.moved hcount tag)

/-! ## Single reads -/

theorem inStep_pure (value : α) :
    InStep own limit excused body body' (Pure.pure value) (Pure.pure value) :=
  fun _ _ => rfl

theorem inStep_throw (error : DecodeError) :
    InStep own limit excused body body' (throw error : ReaderM α) (throw error) :=
  fun _ _ => .inr rfl

theorem repeated_readVarint64 :
    Repeated limit excused (readVarint64 reader) (readVarint64 (reader.allowing limit)) := by
  have hahead : (reader.allowing limit).ahead Varint.maxLength = reader.ahead Varint.maxLength := rfl
  rw [readVarint64, readVarint64, hahead]
  cases Varint.decode (reader.ahead Varint.maxLength) with
  | ok found => exact rfl
  | error error => exact .inr rfl

theorem inStep_readExactly (count : Nat) :
    InStep own limit excused body body' (readExactly count) (readExactly count) := by
  intro reader _
  unfold readExactly
  exact .ite (fun _ => .inr rfl) fun _ => rfl

theorem inStep_skipExactly (count : Nat) :
    InStep own limit excused body body' (skipExactly count) (skipExactly count) := by
  intro reader _
  unfold skipExactly
  exact .ite (fun _ => .inr rfl) fun _ => rfl

theorem repeated_readTag :
    Repeated limit excused (readTag reader) (readTag (reader.allowing limit)) := by
  have hsame : (reader.allowing limit).limit ≤ (reader.allowing limit).position ↔
      reader.limit ≤ reader.position := .rfl
  by_cases hend : reader.limit ≤ reader.position
  · rw [readTag_past_end hend, readTag_past_end (hsame.mpr hend)]
    exact rfl
  · rw [readTag_before_end (not_le.mp hend), readTag_before_end (not_le.mp (hsame.not.mpr hend))]
    refine repeated_readVarint64.bind fun raw after _ => ?_
    unfold acceptTag
    refine .ite (fun _ => .inr rfl) fun _ => ?_
    cases Tag.split raw.toUInt32 with
    | error error => exact .inr rfl
    | ok key => exact rfl

/-! ## Nesting -/

theorem repeated_popLimit (value : α) :
    Repeated limit excused ((popLimit >>= fun _ => Pure.pure value : ReaderM α) reader)
      ((popLimit >>= fun _ => Pure.pure value : ReaderM α) (reader.allowing limit)) := by
  obtain ⟨buffer, position, innermost, limits, lastTag, depth, config⟩ := reader
  cases limits <;> exact rfl

/-- A payload is bounded in step when there is room for it, and what is read in it goes in step. -/
theorem repeated_within (hbounded : Bounded reader) (length : Nat) {read read' : ReaderM α}
    (hread : length ≤ reader.window.length →
      Repeated limit excused (read (reader.entered length))
        (read' ((reader.entered length).allowing limit))) :
    Repeated limit excused (within length read reader)
      (within length read' (reader.allowing limit)) := by
  have hpush : Repeated limit excused (pushLimit length reader)
      (pushLimit length (reader.allowing limit)) := by
    unfold pushLimit
    exact .ite (fun _ => .inr rfl) fun _ => rfl
  refine hpush.bind fun _ after hok => ?_
  rw [pushLimit_eq hbounded.sound] at hok
  by_cases hlength : length ≤ reader.window.length
  · rw [if_pos hlength] at hok
    cases hok
    exact (hread hlength).bind fun value after _ => repeated_popLimit value
  · rw [if_neg hlength] at hok
    cases hok

theorem inStep_within (length : Nat) {read read' : ReaderM α}
    (hread : InStep own limit excused body body' read read') :
    InStep own limit excused body body' (within length read) (within length read') := by
  intro reader hready
  exact repeated_within hready.bounded length fun hlength => hread _ (hready.entered hlength)

theorem repeated_oneDeeper {read read' : ReaderM α}
    (hread : Repeated limit excused (read { reader with depth := reader.depth + 1 })
      (read' (allowing limit { reader with depth := reader.depth + 1 }))) :
    Repeated limit excused (oneDeeper read reader) (oneDeeper read' (reader.allowing limit)) := by
  cases hok : read { reader with depth := reader.depth + 1 } with
  | ok value after =>
      rw [hok] at hread
      have hread' : oneDeeper read' (reader.allowing limit) = .ok value _ := oneDeeper_ok hread
      rw [oneDeeper_ok hok, hread']
      exact rfl
  | error error after =>
      rw [hok] at hread
      rw [oneDeeper_error hok]
      rcases hread with hexcused | hread
      · exact .inl hexcused
      · have hread' : oneDeeper read' (reader.allowing limit) = .error error _ :=
          oneDeeper_error hread
        exact .inr hread'

/-- A nested message is read in step: its body is inside, or it is too deep where the smaller limit
holds. -/
theorem inStep_message (hlimit : own ≤ limit)
    (hexcused : own < limit → excused (.recursionLimitExceeded own)) (name : String) :
    InStep own limit excused body body' (readMessage (body name)) (readMessage (body' name)) := by
  intro reader hready
  obtain ⟨hbounded, rfl, hinside⟩ := hready
  rw [readMessage_eq, readMessage_eq]
  have hlength : Repeated limit excused (readLength reader) (readLength (reader.allowing limit)) :=
    repeated_readVarint64.bind fun _ _ _ => rfl
  refine hlength.bind fun length middle hok => ?_
  have hadvances := (advances_readVarint64.map UInt64.toNat) reader length _ hok
  obtain ⟨count, tag, hcount, rfl⟩ := balanced_readLength.moves hbounded hok
  have hpositive : 0 < count := by simpa [Reader.moved] using hadvances
  unfold readMessageOf
  change Repeated limit excused (if reader.config.recursionLimit ≤ reader.depth then _ else _)
    (if limit ≤ reader.depth then _ else _)
  by_cases hdeep : reader.config.recursionLimit ≤ reader.depth
  · rw [if_pos hdeep]
    -- The errors tell different limits unless these are one, so only a smaller limit is excused.
    rcases hlimit.eq_or_lt with hsame | hsmaller
    · rw [if_pos (hsame ▸ hdeep)]
      exact .inr (by rw [allowing, ← hsame]; rfl)
    · exact .inl (hexcused hsmaller)
  · rw [if_neg hdeep, if_neg (by omega)]
    refine (repeated_within (hbounded.moved hcount tag) length fun hroom => ?_).bind
      fun message after _ => rfl
    have hinner := Inside.of_length hbounded hpositive hcount hroom (not_le.mp hdeep)
    exact repeated_oneDeeper (hinside name _ hinner)

/-! ## Loops -/

theorem inStep_readRecords {record record' : UInt32 → σ → ReaderM σ}
    (hbalanced : ∀ tag state, Balanced (record tag state))
    (hrecord : ∀ tag state,
      InStep own limit excused body body' (record tag state) (record' tag state))
    (fuel : Nat) (state : σ) :
    InStep own limit excused body body' (readRecords record fuel state)
      (readRecords record' fuel state) := by
  induction fuel generalizing state with
  | zero => exact inStep_pure state
  | succ fuel ih =>
      intro reader hready
      rw [readRecords, readRecords]
      refine repeated_readTag.bind fun tag after hok => ?_
      obtain ⟨count, tag', hcount, rfl⟩ := readTag_moves hready.bounded hok
      by_cases hzero : tag = 0
      · rw [if_pos hzero, if_pos hzero]
        exact rfl
      · rw [if_neg hzero, if_neg hzero]
        exact (hrecord tag state).bind (hbalanced tag state) ih _ (hready.moved hcount tag')

theorem inStep_readToLimit {record record' : UInt32 → σ → ReaderM σ}
    (hbalanced : ∀ tag state, Balanced (record tag state))
    (hrecord : ∀ tag state,
      InStep own limit excused body body' (record tag state) (record' tag state)) (state : σ) :
    InStep own limit excused body body' (readToLimit record state) (readToLimit record' state) :=
  fun reader => inStep_readRecords hbalanced hrecord (reader.remaining + 1) state reader

theorem repeated_readRun {read read' : ReaderM α} (hbalanced : Balanced read)
    (hread : InStep own limit excused body body' read read') (fuel : Nat) (elements : List α)
    (hready : Ready own limit excused body body' reader) :
    Repeated limit excused (readRun read fuel elements reader).result
      (readRun read' fuel elements (reader.allowing limit)).result := by
  induction fuel generalizing reader elements with
  | zero => exact rfl
  | succ fuel ih =>
      have hsame : (reader.allowing limit).position < (reader.allowing limit).limit ↔
          reader.position < reader.limit := .rfl
      rw [readRun, readRun]
      by_cases hbefore : reader.position < reader.limit
      · rw [if_pos hbefore, if_pos (hsame.mpr hbefore)]
        have hfirst := hread reader hready
        cases hok : read reader with
        | ok value after =>
            rw [hok] at hfirst
            rw [show read' _ = _ from hfirst]
            obtain ⟨count, tag, hcount, rfl⟩ := hbalanced.moves hready.bounded hok
            exact ih (value :: elements) (hready.moved hcount tag)
        | error error after =>
            rw [hok] at hfirst
            rcases hfirst with hexcused | hfirst
            · exact .inl hexcused
            · rw [hfirst]
              exact .inr rfl
      · rw [if_neg hbefore, if_neg (hsame.not.mpr hbefore)]
        exact rfl

theorem inStep_readElements {read read' : ReaderM α} (hbalanced : Balanced read)
    (hread : InStep own limit excused body body' read read') :
    InStep own limit excused body body' (readElements read) (readElements read') :=
  fun reader => repeated_readRun hbalanced hread (reader.buffer.size - reader.position) []

/-! ## Reads around nested messages -/

/-- Reads around nested messages go in step when the bodies of those messages do, up to an error
that a smaller limit is excused for. -/
theorem Modular.inStep {mentioned : String → Prop} {read : (String → ReaderM Message) → ReaderM α}
    (hread : Modular mentioned read) (hbody : ∀ name, Balanced (body name)) (hlimit : own ≤ limit)
    (hexcused : own < limit → excused (.recursionLimitExceeded own)) :
    InStep own limit excused body body' (read body) (read body') := by
  induction hread with
  | pure value => exact inStep_pure value
  | fail error _ _ => exact inStep_throw error
  | bind hread _ ihread ihnext => exact ihread.bind (hread.balanced hbody) ihnext
  | varint => exact fun _ _ => repeated_readVarint64
  | exactly count => exact inStep_readExactly count
  | skip count => exact inStep_skipExactly count
  | message name _ => exact inStep_message hlimit hexcused name
  | records length hrecord state ih =>
      exact inStep_within length
        (inStep_readToLimit (fun tag state => (hrecord tag state).balanced hbody) ih state)
  | elements length hread _ ih =>
      exact inStep_within length (inStep_readElements (hread.balanced hbody) ih)
  | byTag read _ ih => exact fun reader => ih reader.lastTag reader

/-- So does the body of a message type, which ends where its last record does. -/
theorem inStep_readBody (catalog : Catalog) (schema : MessageSchema)
    (hbody : ∀ name, Balanced (body name)) (hlimit : own ≤ limit)
    (hexcused : own < limit → excused (.recursionLimitExceeded own)) :
    InStep own limit excused body body' (schema.readBody catalog body)
      (schema.readBody catalog body') := by
  have hrecord := modular_readRecord catalog schema
  have hbalanced := fun tag gathered => (hrecord tag gathered).balanced hbody
  refine (inStep_readToLimit hbalanced (fun tag gathered =>
    (hrecord tag gathered).inStep hbody hlimit hexcused) _).bind (.records hbalanced _)
      fun gathered => ?_
  cases finishEntries catalog schema.entries gathered.slots with
  | ok contents => exact inStep_pure _
  | error error => exact inStep_throw error

/-- Under the limit that a reader has, a result is repeated exactly by itself. -/
theorem Balanced.repeated_iff {read : ReaderM α} (hread : Balanced read)
    (hbounded : Bounded reader) {result : EStateM.Result DecodeError Reader α} :
    Repeated reader.config.recursionLimit (fun _ => False) (read reader) result ↔
      result = read reader := by
  have hconfig := (hread.keeps reader hbounded).config_eq
  rw [Reader.after] at hconfig
  cases hok : read reader with
  | ok value after | error error after =>
      rw [hok] at hconfig
      have hsame : after.allowing reader.config.recursionLimit = after := by
        rw [allowing, ← hconfig]
      simp only [Repeated, hsame, false_or]

/-- Reads that go in step under the limit that a reader has give the same, where the bodies of
messages inside are the same. -/
theorem InStep.eq {read read' : ReaderM α}
    (hstep : InStep reader.config.recursionLimit reader.config.recursionLimit (fun _ => False)
      body body' read read')
    (hread : Balanced read) (hbody : ∀ name, Balanced (body name)) (hbounded : Bounded reader)
    (hsame : ∀ name inner, Inside reader inner → body name inner = body' name inner) :
    read reader = read' reader := by
  refine ((hread.repeated_iff hbounded).mp (hstep reader ⟨hbounded, rfl, ?_⟩)).symm
  intro name inner hinner
  rw [← hinner.config_eq]
  exact ((hbody name).repeated_iff hinner.bounded).mpr (hsame name inner hinner).symm

/-- A read around nested messages depends only on the bodies of messages inside. -/
theorem Modular.congr {mentioned : String → Prop} {read : (String → ReaderM Message) → ReaderM α}
    (hread : Modular mentioned read) (hbody : ∀ name, Balanced (body name))
    (hbounded : Bounded reader)
    (hsame : ∀ name inner, Inside reader inner → body name inner = body' name inner) :
    read body reader = read body' reader :=
  (hread.inStep hbody (le_refl _) fun hless => (lt_irrefl _ hless).elim).eq (hread.balanced hbody)
    hbody hbounded hsame

theorem readBody_congr (catalog : Catalog) (schema : MessageSchema)
    (hbody : ∀ name, Balanced (body name)) (hbounded : Bounded reader)
    (hsame : ∀ name inner, Inside reader inner → body name inner = body' name inner) :
    schema.readBody catalog body reader = schema.readBody catalog body' reader :=
  (inStep_readBody catalog schema hbody (le_refl _) fun hless => (lt_irrefl _ hless).elim).eq
    (balanced_readBodyOf catalog schema hbody) hbody hbounded hsame

end Reader

/-- The body of a message type is read around the bodies of the messages nested in it. -/
theorem Catalog.readBody_eq (catalog : Catalog) (name : String) {reader : Reader}
    (hbounded : reader.Bounded) :
    catalog.readBody name reader =
      (catalog.schema name).readBody catalog catalog.readBody reader := by
  change catalog.readBodyWithin (reader.config.recursionLimit - reader.depth) name reader = _
  cases hlevels : reader.config.recursionLimit - reader.depth with
  | zero =>
      refine Reader.readBody_congr catalog _ (fun _ => .tooDeep) hbounded fun name inner hinner => ?_
      have hdepth := hinner.depth_le
      rw [hinner.config_eq, hinner.depth_eq] at hdepth
      omega
  | succ levels =>
      refine Reader.readBody_congr catalog _ (Reader.balanced_readBodyWithin catalog levels) hbounded
        fun name inner hinner => ?_
      have hbelow : inner.config.recursionLimit - inner.depth = levels := by
        rw [hinner.config_eq, hinner.depth_eq]
        omega
      rw [← hbelow]
      rfl

end ProtoWire
