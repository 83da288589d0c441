import ProtoWire.Primitive
import ProtoWire.Proofs.Balanced

/-! # Bounds of a reader

A reader may be used in any order of reads, pushes and pops, and a failed read may leave bounds
pushed. All the same its position never passes the innermost end, every end lies at or before the
end around it, and none lies outside the buffer.
-/

namespace ProtoWire

namespace Reader

variable {α β σ : Type} {reader middle last : Reader}

/-- A position before the innermost end, and every end before the one around it and in the
buffer.
-/
structure Bounded (reader : Reader) : Prop where
  position_le : reader.position ≤ reader.limit
  nested : (reader.limit :: reader.limits).Pairwise (· ≤ ·)
  inside : ∀ limit ∈ reader.limit :: reader.limits, limit ≤ reader.buffer.size

/-- The reader after a read, whether or not it failed. -/
def after (reader : Reader) (read : ReaderM α) : Reader :=
  match read reader with
  | .ok _ after => after
  | .error _ after => after

/-- A reader that went on within its bounds, over the same buffer, at the same depth and under the
same configuration. -/
structure Kept (reader after : Reader) : Prop where
  bounded : after.Bounded
  position_le : reader.position ≤ after.position
  buffer_eq : after.buffer = reader.buffer
  depth_eq : after.depth = reader.depth
  config_eq : after.config = reader.config

/-- A read that keeps bounds, also when it fails. -/
def Keeps (read : ReaderM α) : Prop := ∀ reader, Bounded reader → Kept reader (reader.after read)

theorem Bounded.sound (hbounded : Bounded reader) :
    Sound (reader.config.recursionLimit - reader.depth) reader where
  position_le := hbounded.position_le
  limit_le := hbounded.inside reader.limit List.mem_cons_self
  levels_eq := rfl

theorem bounded_ofBytes (bytes : Bytes) (config : ReaderConfig) : Bounded (.ofBytes bytes config) where
  position_le := Nat.zero_le bytes.length
  nested := List.pairwise_singleton _ _
  inside := by simp [ofBytes]

theorem Kept.refl (hbounded : Bounded reader) : Kept reader reader :=
  ⟨hbounded, Nat.le_refl _, rfl, rfl, rfl⟩

theorem Kept.trans (hfirst : Kept reader middle) (hsecond : Kept middle last) :
    Kept reader last where
  bounded := hsecond.bounded
  position_le := hfirst.position_le.trans hsecond.position_le
  buffer_eq := hsecond.buffer_eq.trans hfirst.buffer_eq
  depth_eq := hsecond.depth_eq.trans hfirst.depth_eq
  config_eq := hsecond.config_eq.trans hfirst.config_eq

/-! ## Moves of the cursor -/

theorem Bounded.kept_skip (hbounded : Bounded reader) {count : Nat}
    (hcount : count ≤ reader.remaining) : Kept reader (reader.skip count) := by
  have hposition := hbounded.position_le
  rw [remaining] at hcount
  have hskip : reader.position + count ≤ reader.limit := by omega
  exact ⟨⟨hskip, hbounded.nested, hbounded.inside⟩, Nat.le_add_right _ count, rfl, rfl, rfl⟩

theorem Bounded.kept_lastTag (hbounded : Bounded reader) (tag : UInt32) :
    Kept reader { reader with lastTag := tag } :=
  ⟨⟨hbounded.position_le, hbounded.nested, hbounded.inside⟩, Nat.le_refl _, rfl, rfl, rfl⟩

theorem Bounded.kept_entered (hbounded : Bounded reader) {length : Nat}
    (hlength : length ≤ reader.remaining) : Kept reader (reader.entered length) := by
  have hposition := hbounded.position_le
  have hlimit := hbounded.inside reader.limit List.mem_cons_self
  rw [remaining] at hlength
  have hend : reader.position + length ≤ reader.limit := by omega
  refine ⟨⟨Nat.le_add_right _ length, ?_, ?_⟩, Nat.le_refl _, rfl, rfl, rfl⟩
  · refine List.pairwise_cons.mpr ⟨fun outer houter => ?_, hbounded.nested⟩
    rcases List.mem_cons.mp houter with rfl | houter
    · exact hend
    · exact hend.trans (List.rel_of_pairwise_cons hbounded.nested houter)
  · intro limit hmember
    rcases List.mem_cons.mp hmember with rfl | hmember
    · exact hend.trans hlimit
    · exact hbounded.inside limit hmember

theorem Bounded.kept_withoutLimit (hbounded : Bounded reader) :
    Kept reader reader.withoutLimit := by
  obtain ⟨hposition, hnested, hinside⟩ := hbounded
  obtain ⟨buffer, position, limit, limits, lastTag, depth, config⟩ := reader
  cases limits with
  | nil =>
      have hsize : limit ≤ buffer.size := hinside limit List.mem_cons_self
      refine ⟨⟨hposition.trans hsize, List.pairwise_singleton _ _, ?_⟩, Nat.le_refl _, rfl, rfl,
        rfl⟩
      intro outer houter
      exact (List.mem_singleton.mp houter).le
  | cons outer limits =>
      have hle : limit ≤ outer := List.rel_of_pairwise_cons hnested List.mem_cons_self
      exact ⟨⟨hposition.trans hle, hnested.of_cons, fun limit hmember =>
        hinside limit (List.mem_cons_of_mem _ hmember)⟩, Nat.le_refl _, rfl, rfl, rfl⟩

/-! ## Single reads -/

theorem keeps_pure (value : α) : Keeps (Pure.pure value) := fun _ hbounded => .refl hbounded

theorem keeps_throw (error : DecodeError) : Keeps (throw error : ReaderM α) :=
  fun _ hbounded => .refl hbounded

theorem Keeps.bind {read : ReaderM α} {next : α → ReaderM β} (hread : Keeps read)
    (hnext : ∀ value, Keeps (next value)) : Keeps (read >>= next) := by
  intro reader hbounded
  have hfirst := hread reader hbounded
  rw [after] at hfirst ⊢
  cases hok : read reader with
  | ok value middle =>
      rw [hok] at hfirst
      rw [bind_ok hok]
      exact hfirst.trans (hnext value middle hfirst.bounded)
  | error error middle =>
      rw [hok] at hfirst
      rw [bind_error hok]
      exact hfirst

theorem keeps_readVarint64 : Keeps readVarint64 := by
  intro reader hbounded
  have hahead := ahead_eq_take hbounded.sound Varint.maxLength
  have hwindow := length_window hbounded.sound
  rw [after, readVarint64]
  cases hdecode : Varint.decode (reader.ahead Varint.maxLength) with
  | error error => exact .refl hbounded
  | ok found =>
      have hcount := (Varint.decode_count hdecode).2
      rw [hahead, List.length_take] at hcount
      exact hbounded.kept_skip (by omega)

theorem keeps_readExactly (count : Nat) : Keeps (readExactly count) := by
  intro reader hbounded
  rw [after, readExactly]
  by_cases hcount : reader.remaining < count
  · rw [if_pos hcount]
    exact .refl hbounded
  · rw [if_neg hcount]
    exact hbounded.kept_skip (not_lt.mp hcount)

theorem keeps_skipExactly (count : Nat) : Keeps (skipExactly count) := by
  intro reader hbounded
  rw [after, skipExactly]
  by_cases hcount : reader.remaining < count
  · rw [if_pos hcount]
    exact .refl hbounded
  · rw [if_neg hcount]
    exact hbounded.kept_skip (not_lt.mp hcount)

theorem keeps_pushLimit (length : Nat) : Keeps (pushLimit length) := by
  intro reader hbounded
  rw [after, pushLimit]
  by_cases hlength : reader.remaining < length
  · rw [if_pos hlength]
    exact .refl hbounded
  · rw [if_neg hlength]
    exact hbounded.kept_entered (not_lt.mp hlength)

theorem keeps_popLimit : Keeps popLimit := fun _ hbounded => hbounded.kept_withoutLimit

theorem keeps_readTag : Keeps readTag := by
  intro reader hbounded
  by_cases hend : reader.limit ≤ reader.position
  · rw [after, readTag_past_end hend]
    exact hbounded.kept_lastTag 0
  · have haccept : ∀ raw, Keeps (acceptTag raw) := by
      intro raw reader hbounded
      rw [after, acceptTag]
      by_cases hraw : 4294967295 < raw
      · rw [if_pos hraw]
        exact .refl hbounded
      · rw [if_neg hraw]
        cases Tag.split raw.toUInt32 with
        | error error => exact .refl hbounded
        | ok key => exact hbounded.kept_lastTag raw.toUInt32
    rw [after, readTag_before_end (not_le.mp hend)]
    exact (keeps_readVarint64.bind haccept) reader hbounded

/-! ## Loops and nesting -/

theorem keeps_readRecords {record : UInt32 → σ → ReaderM σ}
    (hrecord : ∀ tag state, Keeps (record tag state)) (fuel : Nat) (state : σ) :
    Keeps (readRecords record fuel state) := by
  induction fuel generalizing state with
  | zero => exact keeps_pure state
  | succ fuel ih =>
      refine keeps_readTag.bind fun tag => ?_
      split
      · exact keeps_pure state
      · exact (hrecord tag state).bind ih

theorem keeps_readToLimit {record : UInt32 → σ → ReaderM σ}
    (hrecord : ∀ tag state, Keeps (record tag state)) (state : σ) :
    Keeps (readToLimit record state) :=
  fun reader => keeps_readRecords hrecord (reader.remaining + 1) state reader

theorem kept_readRun {element : ReaderM α} (helement : Keeps element) (fuel : Nat)
    (read : List α) (hbounded : Bounded reader) :
    Kept reader (readRun element fuel read reader).reader := by
  induction fuel generalizing read reader with
  | zero => exact .refl hbounded
  | succ fuel ih =>
      rw [readRun]
      split
      next =>
        have hfirst := helement reader hbounded
        rw [after] at hfirst
        cases hok : element reader with
        | ok value middle =>
            rw [hok] at hfirst
            exact hfirst.trans (ih (value :: read) hfirst.bounded)
        | error error middle =>
            rw [hok] at hfirst
            exact hfirst
      next => exact .refl hbounded

theorem keeps_readElements {body : ReaderM α} (hbody : Keeps body) : Keeps (readElements body) := by
  intro reader hbounded
  have hrun := kept_readRun hbody (reader.buffer.size - reader.position) [] hbounded
  rw [after, readElements, Occurrence.result]
  cases (readRun body (reader.buffer.size - reader.position) [] reader).failure <;> exact hrun

theorem keeps_within {body : ReaderM α} (length : Nat) (hbody : Keeps body) :
    Keeps (within length body) :=
  (keeps_pushLimit length).bind fun _ => hbody.bind fun value =>
    keeps_popLimit.bind fun _ => keeps_pure value

theorem keeps_oneDeeper {body : ReaderM α} (hbody : Keeps body) : Keeps (oneDeeper body) := by
  intro reader hbounded
  have hdeeper : Bounded { reader with depth := reader.depth + 1 } :=
    ⟨hbounded.position_le, hbounded.nested, hbounded.inside⟩
  obtain ⟨hinner, hposition, hbuffer, hdepth, hconfig⟩ := hbody _ hdeeper
  rw [after] at hinner hposition hbuffer hdepth hconfig ⊢
  rw [oneDeeper]
  cases hok : body { reader with depth := reader.depth + 1 } with
  | ok value last | error error last =>
      rw [hok] at hinner hposition hbuffer hdepth hconfig
      refine ⟨⟨hinner.position_le, hinner.nested, hinner.inside⟩, hposition, hbuffer, ?_, hconfig⟩
      dsimp only at hdepth ⊢
      rw [hdepth, Nat.add_sub_cancel]

theorem Balanced.keeps {read : ReaderM α} (hread : Balanced read) : Keeps read := by
  induction hread with
  | pure value => exact keeps_pure value
  | fail error _ => exact keeps_throw error
  | tooDeep => exact fun _ hbounded => .refl hbounded
  | bind _ _ ihread ihnext => exact ihread.bind ihnext
  | varint => exact keeps_readVarint64
  | exactly count => exact keeps_readExactly count
  | skip count => exact keeps_skipExactly count
  | within length _ ih => exact keeps_within length ih
  | deeper _ ih => exact keeps_oneDeeper ih
  | records _ state ih => exact keeps_readToLimit ih state
  | elements _ _ ih => exact keeps_readElements ih
  | byTag read _ ih => exact fun reader => ih reader.lastTag reader
  | byLevels read _ ih =>
      exact fun reader => ih (reader.config.recursionLimit - reader.depth) reader
  | setTag tag => exact fun _ hbounded => hbounded.kept_lastTag tag

/-! ## Failed words -/

/-- A read that leaves the reader as it was when it fails. -/
def Harmless (read : ReaderM α) : Prop :=
  ∀ reader error after, read reader = .error error after → after = reader

theorem Harmless.map {read : ReaderM α} (hread : Harmless read) (change : α → β) :
    Harmless (read >>= fun value => Pure.pure (change value)) := by
  intro reader error after hboth
  rcases error_of_bind hboth with hfirst | ⟨value, middle, -, hmade⟩
  · exact hread reader error after hfirst
  · cases hmade

theorem harmless_readVarint64 : Harmless readVarint64 := by
  intro reader error after hread
  rw [readVarint64] at hread
  cases hdecode : Varint.decode (reader.ahead Varint.maxLength) <;> rw [hdecode] at hread <;>
    cases hread
  rfl

theorem harmless_readExactly (count : Nat) : Harmless (readExactly count) := by
  intro reader error after hread
  rw [readExactly] at hread
  split at hread <;> cases hread
  rfl

theorem harmless_pushLimit (length : Nat) : Harmless (pushLimit length) := by
  intro reader error after hread
  rw [pushLimit] at hread
  split at hread <;> cases hread
  rfl

theorem harmless_readScalar {type : ScalarType} (htype : type.wireType ≠ .len) :
    Harmless type.read := by
  have hword : Harmless readVarint32 := harmless_readVarint64.map UInt64.toUInt32
  have hfixed32 : Harmless readFixed32 := (harmless_readExactly 4).map _
  have hfixed64 : Harmless readFixed64 := (harmless_readExactly 8).map _
  cases type with
  | bool | int64 | uint64 | sint64 => exact harmless_readVarint64.map _
  | int32 | uint32 | sint32 => exact hword.map _
  | double | fixed64 | sfixed64 => exact hfixed64.map _
  | float | fixed32 | sfixed32 => exact hfixed32.map _
  | string | bytes => exact absurd rfl htype

end Reader

/-- Whether a primitive is one varint or one word of a fixed width. -/
def PrimitiveType.isWord : PrimitiveType → Bool
  | .varint32 | .varint64 | .length | .enumNumber => true
  | .tag => false
  | .scalar type => type.wireType != .len

theorem PrimitiveType.harmless_read {type : PrimitiveType} (hword : type.isWord = true) :
    Reader.Harmless type.read := by
  have hvarint := Reader.harmless_readVarint64
  cases type with
  | varint32 => exact (hvarint.map UInt64.toUInt32).map _
  | varint64 => exact hvarint.map _
  | length => exact (hvarint.map UInt64.toNat).map _
  | tag => cases hword
  | enumNumber => exact (hvarint.map UInt64.toUInt32).map fun word => Primitive.enumNumber word.toInt32
  | scalar type => exact (Reader.harmless_readScalar (bne_iff_ne.mp hword)).map _

theorem PrimitiveType.keeps_read (type : PrimitiveType) : Reader.Keeps type.read := by
  cases type with
  | varint32 => exact (Reader.Balanced.varint.map UInt64.toUInt32).map _ |>.keeps
  | varint64 => exact (Reader.Balanced.varint.map _).keeps
  | length => exact (Reader.balanced_readLength.map _).keeps
  | tag => exact Reader.keeps_readTag.bind fun tag => Reader.keeps_pure _
  | enumNumber =>
      exact ((Reader.Balanced.varint.map UInt64.toUInt32).map
        fun word => Primitive.enumNumber word.toInt32).keeps
  | scalar type => exact ((Reader.modular_readScalar type).plain.map _).keeps

namespace Reader

variable {α : Type}

/-! ## Runs -/

/-- Runs a read and goes on after its failure. -/
def attempt (read : ReaderM α) : ReaderM (Option α) := fun reader =>
  match read reader with
  | .ok value after => .ok (some value) after
  | .error _ after => .ok none after

/-- What can be done with a reader: its operations one after the other, each depending on what was
read before, with errors raised and caught on the way. The elements of a repeated field and the
body of a message type outside the catalog may be read by any such means. -/
inductive Usable (catalog : Catalog) : {α : Type} → ReaderM α → Prop
  | primitive (type : PrimitiveType) : Usable catalog type.read
  | pushLimit (length : Nat) : Usable catalog (pushLimit length)
  | popLimit : Usable catalog popLimit
  | unknown (tag : UInt32) : Usable catalog (readUnknown tag)
  | skip (tag : UInt32) : Usable catalog (skipField tag)
  | repeated {α : Type} (element : WireType) {body : ReaderM α} (hbody : Usable catalog body) :
      Usable catalog (readRepeated element body)
  | message (name : String) : Usable catalog (catalog.readMessage name)
  | messageOf {α : Type} {body : ReaderM α} (hbody : Usable catalog body) :
      Usable catalog (readMessage body)
  | give {α : Type} (value : α) : Usable catalog (pure value : ReaderM α)
  | raise {α : Type} (error : DecodeError) : Usable catalog (throw error : ReaderM α)
  | bind {α β : Type} {read : ReaderM α} {next : α → ReaderM β} (hread : Usable catalog read)
      (hnext : ∀ value, Usable catalog (next value)) : Usable catalog (read >>= next)
  | attempt {α : Type} {read : ReaderM α} (hread : Usable catalog read) :
      Usable catalog (attempt read)

/-- Something that can be done with a reader. -/
structure Operation (catalog : Catalog) where
  {α : Type}
  read : ReaderM α
  usable : Usable catalog read

/-- The reader after some operations, each of which may fail. -/
def run {catalog : Catalog} (reader : Reader) (operations : List (Operation catalog)) : Reader :=
  operations.foldl (fun reader operation => reader.after operation.read) reader

theorem keeps_readMessage {body : ReaderM α} (hbody : Keeps body) : Keeps (readMessage body) := by
  rw [readMessage_eq]
  refine balanced_readLength.keeps.bind fun length reader hbounded => ?_
  have hinner : Keeps (within length (oneDeeper body) >>= fun message => do
      modify fun after => { after with lastTag := reader.lastTag }
      return message) :=
    (keeps_within length (keeps_oneDeeper hbody)).bind fun message =>
      Keeps.bind (fun _ hbounded => hbounded.kept_lastTag reader.lastTag) fun _ => keeps_pure message
  rw [after, readMessageOf]
  by_cases hdeep : reader.config.recursionLimit ≤ reader.depth
  · rw [if_pos hdeep]
    exact .refl hbounded
  · rw [if_neg hdeep]
    exact hinner reader hbounded

theorem keeps_readRepeated (element : WireType) {body : ReaderM α} (hbody : Keeps body) :
    Keeps (readRepeated element body) := by
  intro reader hbounded
  have hread := congrFun (readRepeated_eq element body) reader
  rw [after, hread]
  by_cases hpacked : announcesRun element reader.lastTag = true
  · rw [if_pos hpacked]
    have hrun := fun length => keeps_within length (keeps_readElements hbody)
    exact balanced_readLength.keeps.bind (fun length =>
      (modular_checkRun element length).plain.keeps.bind fun _ => hrun length) reader hbounded
  · rw [if_neg hpacked]
    exact hbody.bind (fun value => keeps_pure [value]) reader hbounded

theorem keeps_attempt {read : ReaderM α} (hread : Keeps read) : Keeps (attempt read) := by
  intro reader hbounded
  have hkept := hread reader hbounded
  rw [after] at hkept ⊢
  rw [attempt]
  cases hok : read reader with
  | ok value after | error error after =>
      rw [hok] at hkept
      exact hkept

theorem Usable.keeps {catalog : Catalog} {read : ReaderM α} (hread : Usable catalog read) :
    Keeps read := by
  induction hread with
  | primitive type => exact type.keeps_read
  | pushLimit length => exact keeps_pushLimit length
  | popLimit => exact keeps_popLimit
  | unknown tag => exact (modular_readUnknown tag).plain.keeps
  | skip tag => exact (modular_skipField tag).plain.keeps
  | repeated element _ ih => exact keeps_readRepeated element ih
  | message name => exact (balanced_readMessage (balanced_catalogBody catalog name)).keeps
  | messageOf _ ih => exact keeps_readMessage ih
  | give value => exact keeps_pure value
  | raise error => exact keeps_throw error
  | bind _ _ ihread ihnext => exact ihread.bind ihnext
  | attempt _ ih => exact keeps_attempt ih

theorem kept_run {catalog : Catalog} (operations : List (Operation catalog)) {reader : Reader}
    (hbounded : Bounded reader) : Kept reader (reader.run operations) := by
  induction operations generalizing reader with
  | nil => exact .refl hbounded
  | cons operation operations ih =>
      have hfirst := operation.usable.keeps reader hbounded
      exact hfirst.trans (ih hfirst.bounded)

/-- However a reader is used, its position, its ends and its buffer stay in order, the depth is back
at 0 after every operation, and nothing goes back; a length that fits stays in the buffer. A word
that cannot be read and a bound that cannot be pushed leave no trace. -/
theorem bounds_hold (catalog : Catalog) (bytes : Bytes) (config : ReaderConfig)
    (operations : List (Operation catalog)) :
    let reader := (ofBytes bytes config).run operations
    reader.Bounded ∧ reader.buffer = bytes.toArray ∧ reader.depth = 0 ∧
      (∀ operation : Operation catalog,
        reader.position ≤ (reader.after operation.read).position) ∧
      (∀ length ≤ reader.remaining, reader.position + length ≤ bytes.length) ∧
      (∀ type : PrimitiveType, type.isWord = true → ∀ error after,
        type.read reader = .error error after → after = reader) ∧
      ∀ length error after, Reader.pushLimit length reader = .error error after →
        after = reader := by
  intro reader
  obtain ⟨hbounded, _, hbuffer, hdepth⟩ := kept_run operations (bounded_ofBytes bytes config)
  refine ⟨hbounded, hbuffer, hdepth, fun operation => ?_, fun length hlength => ?_,
    fun type hword => PrimitiveType.harmless_read hword reader,
    fun length => harmless_pushLimit length reader⟩
  · exact (operation.usable.keeps reader hbounded).position_le
  · have hposition : reader.position ≤ reader.limit := hbounded.position_le
    have hlimit := hbounded.inside reader.limit List.mem_cons_self
    have hsize : reader.buffer.size = bytes.length := by
      rw [hbuffer, ofBytes, List.size_toArray]
    rw [hsize] at hlimit
    rw [remaining] at hlength
    omega

end Reader

end ProtoWire
