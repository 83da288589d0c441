import ProtoWire.Proofs.Framing
import ProtoWire.Reader

/-! # Reads and what they see

A read sees the bytes before the innermost end and how many messages deeper it may go. What it
answers, and how much it leaves, are functions of those bytes, given here by cutters; where a cutter
gives nothing, the read fails. The cutter of a sequence of reads is the sequence of their cutters.
-/

namespace ProtoWire

section Sequences

variable {ε ς α β : Type} {read : EStateM ε ς α} {state after : ς}

/-- What a read leaves is where the next one starts. -/
theorem bind_ok {value : α} (hread : read state = .ok value after) (next : α → EStateM ε ς β) :
    (read >>= next) state = next value after := by
  change EStateM.bind read next state = _
  rw [EStateM.bind, hread]

theorem bind_error {error : ε} (hread : read state = .error error after)
    (next : α → EStateM ε ς β) : (read >>= next) state = .error error after := by
  change EStateM.bind read next state = _
  rw [EStateM.bind, hread]

/-- Reads one after the other succeed only if both do. -/
theorem ok_of_bind {next : α → EStateM ε ς β} {result : β}
    (hboth : (read >>= next) state = .ok result after) :
    ∃ value middle, read state = .ok value middle ∧ next value middle = .ok result after := by
  cases hread : read state with
  | ok value middle => exact ⟨value, middle, rfl, (bind_ok hread next).symm.trans hboth⟩
  | error error middle =>
      rw [bind_error hread] at hboth
      cases hboth

/-- Reads one after the other fail with the first or, once that succeeds, with the second. -/
theorem error_of_bind {next : α → EStateM ε ς β} {error : ε}
    (hboth : (read >>= next) state = .error error after) :
    read state = .error error after ∨
      ∃ value middle, read state = .ok value middle ∧ next value middle = .error error after := by
  cases hread : read state with
  | ok value middle => exact .inr ⟨value, middle, rfl, (bind_ok hread next).symm.trans hboth⟩
  | error first middle =>
      rw [bind_error hread] at hboth
      cases hboth
      exact .inl rfl

end Sequences

namespace Reader

variable {α β σ : Type}

/-- A reader whose position lies before its innermost end and whose innermost end lies in the
buffer, when messages may be nested `levels` deeper.
-/
structure Sound (levels : Nat) (reader : Reader) : Prop where
  position_le : reader.position ≤ reader.limit
  limit_le : reader.limit ≤ reader.buffer.size
  levels_eq : reader.config.recursionLimit - reader.depth = levels

/-- The reader when `rest` is left of its window and the last tag is `tag`. -/
def past (reader : Reader) (rest : Bytes) (tag : UInt32) : Reader :=
  { reader with position := reader.limit - rest.length, lastTag := tag }

/-- A read gives the value and leaves the rest that are told, or fails when none are told. -/
def Answers (read : ReaderM α) (reader : Reader) : Option (α × Bytes) → Prop
  | some (value, rest) =>
      rest <:+ reader.window ∧ ∃ tag, read reader = .ok value (reader.past rest tag)
  | none => ∃ error after, read reader = .error error after

/-- A read that sees the window as a cutter does. -/
def Follows (levels : Nat) (read : ReaderM α) (cut : Bytes → Option (α × Bytes)) : Prop :=
  ∀ reader, Sound levels reader → Answers read reader (cut reader.window)

/-! ## The window -/

variable {levels : Nat} {reader : Reader}

theorem ahead_eq (hsound : Sound levels reader) (count : Nat) :
    reader.ahead count =
      ((reader.buffer.toList.take reader.limit).drop reader.position).take count := by
  have hposition := hsound.position_le
  have hlimit := hsound.limit_le
  rw [ahead, Array.toList_extract, List.extract_eq_take_drop, List.drop_take, List.take_take,
    remaining]
  congr 1
  omega

theorem window_eq (hsound : Sound levels reader) :
    reader.window = (reader.buffer.toList.take reader.limit).drop reader.position := by
  have hposition := hsound.position_le
  have hlimit := hsound.limit_le
  rw [window, ahead_eq hsound, List.take_of_length_le]
  simp only [List.length_drop, List.length_take, Array.length_toList, remaining]
  omega

theorem ahead_eq_take (hsound : Sound levels reader) (count : Nat) :
    reader.ahead count = reader.window.take count := by
  rw [ahead_eq hsound, window_eq hsound]

theorem length_window (hsound : Sound levels reader) :
    reader.window.length = reader.remaining := by
  have hlimit := hsound.limit_le
  rw [window_eq hsound]
  simp only [List.length_drop, List.length_take, Array.length_toList, remaining]
  omega

theorem length_window_le (hsound : Sound levels reader) :
    reader.window.length ≤ reader.buffer.size - reader.position := by
  rw [length_window hsound]
  exact Nat.sub_le_sub_right hsound.limit_le reader.position

theorem window_eq_nil_iff (hsound : Sound levels reader) :
    reader.window = [] ↔ reader.limit ≤ reader.position := by
  rw [← List.length_eq_zero_iff, length_window hsound, remaining]
  exact Nat.sub_eq_zero_iff_le

theorem Sound.past (hsound : Sound levels reader) (rest : Bytes) (tag : UInt32) :
    Sound levels (reader.past rest tag) where
  position_le := Nat.sub_le reader.limit rest.length
  limit_le := hsound.limit_le
  levels_eq := hsound.levels_eq

theorem window_past (hsound : Sound levels reader) {rest : Bytes}
    (hrest : rest <:+ reader.window) (tag : UInt32) : (reader.past rest tag).window = rest := by
  have hlimit := hsound.limit_le
  rw [window_eq hsound] at hrest
  have hsuffix := hrest.trans (List.drop_suffix _ _)
  rw [window_eq (hsound.past rest tag)]
  have hdrop := List.suffix_iff_eq_drop.mp hsuffix
  rw [List.length_take, Array.length_toList, Nat.min_eq_left hlimit] at hdrop
  exact hdrop.symm

@[simp]
theorem past_past (rest rest' : Bytes) (tag tag' : UInt32) :
    (reader.past rest tag).past rest' tag' = reader.past rest' tag' := rfl

theorem past_window (hsound : Sound levels reader) (tag : UInt32) :
    reader.past reader.window tag = { reader with lastTag := tag } := by
  have hposition := hsound.position_le
  have hback : reader.limit - reader.window.length = reader.position := by
    rw [length_window hsound, remaining]
    omega
  rw [past, hback]

theorem skip_eq (hsound : Sound levels reader) {count : Nat}
    (hcount : count ≤ reader.window.length) :
    reader.skip count = reader.past (reader.window.drop count) reader.lastTag := by
  have hposition := hsound.position_le
  have hback : reader.limit - (reader.window.drop count).length = reader.position + count := by
    rw [length_window hsound, remaining] at hcount
    rw [List.length_drop, length_window hsound, remaining]
    omega
  rw [skip, past, hback]

/-! ## Sequences of reads -/

theorem Answers.of_eq {read whole : ReaderM α} {outcome : Option (α × Bytes)}
    (hanswers : Answers read reader outcome) (hwhole : whole reader = read reader) :
    Answers whole reader outcome := by
  unfold Answers
  rw [hwhole]
  exact hanswers

theorem Answers.of_past {rest : Bytes} {tag : UInt32} {read whole : ReaderM α}
    {outcome : Option (α × Bytes)} (hsound : Sound levels reader) (hrest : rest <:+ reader.window)
    (hanswers : Answers read (reader.past rest tag) outcome)
    (hwhole : whole reader = read (reader.past rest tag)) : Answers whole reader outcome := by
  cases outcome with
  | none =>
      obtain ⟨error, after, hread⟩ := hanswers
      exact ⟨error, after, hwhole.trans hread⟩
  | some found =>
      obtain ⟨hsuffix, tag', hread⟩ := hanswers
      rw [window_past hsound hrest] at hsuffix
      exact ⟨hsuffix.trans hrest, tag', hwhole.trans hread⟩

theorem Follows.pure (value : α) :
    Follows levels (Pure.pure value) fun bytes => some (value, bytes) := by
  intro reader hsound
  refine ⟨List.suffix_refl _, reader.lastTag, ?_⟩
  rw [past_window hsound]
  rfl

theorem Answers.bind {read : ReaderM α} {next : α → ReaderM β}
    {outcome : Option (α × Bytes)} {after : α → Bytes → Option (β × Bytes)}
    (hsound : Sound levels reader) (hread : Answers read reader outcome)
    (hnext : ∀ value rest tag, outcome = some (value, rest) → rest <:+ reader.window →
      Answers (next value) (reader.past rest tag) (after value rest)) :
    Answers (read >>= next) reader (outcome.bind fun found => after found.1 found.2) := by
  cases outcome with
  | none =>
      obtain ⟨error, reader', hread⟩ := hread
      exact ⟨error, reader', bind_error hread next⟩
  | some found =>
      obtain ⟨hrest, tag, hread⟩ := hread
      exact (hnext found.1 found.2 tag rfl hrest).of_past hsound hrest (bind_ok hread next)

/-- The cutter of a sequence of reads is the sequence of their cutters. -/
theorem Follows.bind {read : ReaderM α} {next : α → ReaderM β}
    {cut : Bytes → Option (α × Bytes)} {after : α → Bytes → Option (β × Bytes)}
    (hread : Follows levels read cut) (hnext : ∀ value, Follows levels (next value) (after value)) :
    Follows levels (read >>= next) fun bytes =>
      (cut bytes).bind fun found => after found.1 found.2 := by
  intro reader hsound
  refine (hread reader hsound).bind hsound fun value rest tag _ hrest => ?_
  have hanswers := hnext value _ (hsound.past rest tag)
  rwa [window_past hsound hrest] at hanswers

theorem Follows.congr {read : ReaderM α} {cut cut' : Bytes → Option (α × Bytes)}
    (hread : Follows levels read cut) (hcut : ∀ bytes, cut bytes = cut' bytes) :
    Follows levels read cut' := by
  rw [← funext hcut]
  exact hread

theorem Answers.map {read : ReaderM α} {outcome : Option (α × Bytes)}
    (hread : Answers read reader outcome) (change : α → β) :
    Answers (read >>= fun value => Pure.pure (change value)) reader
      (outcome.map fun found => (change found.1, found.2)) := by
  cases outcome with
  | none =>
      obtain ⟨error, after, hread⟩ := hread
      exact ⟨error, after, bind_error hread _⟩
  | some found =>
      obtain ⟨hrest, tag, hread⟩ := hread
      exact ⟨hrest, tag, bind_ok hread _⟩

theorem Follows.map {read : ReaderM α} {cut : Bytes → Option (α × Bytes)}
    (hread : Follows levels read cut) (change : α → β) :
    Follows levels (read >>= fun value => Pure.pure (change value)) fun bytes =>
      (cut bytes).map fun found => (change found.1, found.2) :=
  fun reader hsound => (hread reader hsound).map change

/-! ## Words and payloads -/

theorem readVarint64_ok (hsound : Sound levels reader) {value : UInt64} {count : Nat}
    (hdecode : Varint.decode reader.window = .ok (value, count)) :
    readVarint64 reader = .ok value (reader.skip count) := by
  rw [readVarint64, ahead_eq_take hsound, Varint.decode_take, hdecode]

/-- What is written of a word is read as the word. -/
theorem readVarint64_encode (hsound : Sound levels reader) {word : UInt64} {rest : Bytes}
    (hwindow : reader.window = Varint.encode word ++ rest) :
    readVarint64 reader = .ok word (reader.skip (Varint.encode word).length) := by
  have hdecode := Varint.decode_encode_append word rest
  rw [← hwindow] at hdecode
  exact readVarint64_ok hsound hdecode

theorem readVarint64_error (hsound : Sound levels reader) {error : DecodeError}
    (hdecode : Varint.decode reader.window = .error error) :
    readVarint64 reader = .error error reader := by
  rw [readVarint64, ahead_eq_take hsound, Varint.decode_take, hdecode]

theorem follows_readVarint64 : Follows levels readVarint64 Varint.cut? := by
  intro reader hsound
  unfold Varint.cut?
  cases hdecode : Varint.decode reader.window with
  | error error => exact ⟨error, reader, readVarint64_error hsound hdecode⟩
  | ok found =>
      obtain ⟨value, count⟩ := found
      refine ⟨List.drop_suffix count _, reader.lastTag, ?_⟩
      rw [readVarint64_ok hsound hdecode, skip_eq hsound (Varint.decode_count hdecode).2]

theorem follows_readVarint32 : Follows levels readVarint32 fun bytes =>
    (Varint.cut? bytes).map fun found => (found.1.toUInt32, found.2) :=
  follows_readVarint64.map UInt64.toUInt32

theorem follows_readExactly (count : Nat) :
    Follows levels (readExactly count) (Bytes.cut? count) := by
  intro reader hsound
  have hremaining := length_window hsound
  unfold Bytes.cut?
  split
  next hcount =>
    refine ⟨List.drop_suffix count _, reader.lastTag, ?_⟩
    simp only [readExactly, if_neg (by omega : ¬ reader.remaining < count), ahead_eq_take hsound,
      skip_eq hsound hcount]
  next hcount =>
    refine ⟨.truncated count reader.remaining, reader, ?_⟩
    simp only [readExactly, if_pos (by omega : reader.remaining < count)]

theorem follows_skipExactly (count : Nat) : Follows levels (skipExactly count) fun bytes =>
    (Bytes.cut? count bytes).map fun found => ((), found.2) := by
  intro reader hsound
  have hremaining := length_window hsound
  unfold Bytes.cut?
  dsimp only
  split
  next hcount =>
    refine ⟨List.drop_suffix count _, reader.lastTag, ?_⟩
    simp only [skipExactly, if_neg (by omega : ¬ reader.remaining < count), skip_eq hsound hcount]
  next hcount =>
    refine ⟨.truncated count reader.remaining, reader, ?_⟩
    simp only [skipExactly, if_pos (by omega : reader.remaining < count)]

/-- A payload behind its length, and the bytes after it. -/
def cutDelimited? (bytes : Bytes) : Option (Bytes × Bytes) :=
  (Varint.cut? bytes).bind fun found => Bytes.cut? found.1.toNat found.2

theorem follows_readBytes : Follows levels readBytes cutDelimited? := by
  refine ((follows_readVarint64.map UInt64.toNat).bind follows_readExactly).congr fun bytes => ?_
  unfold cutDelimited?
  cases Varint.cut? bytes <;> rfl

theorem follows_readUnknown {tag : UInt32} {key : FieldKey} (hkey : Tag.split tag = .ok key) :
    Follows levels (readUnknown tag) fun bytes =>
      (UnknownValue.cut? key.wireType bytes).map fun found => (⟨key.number, found.1⟩, found.2) := by
  unfold readUnknown
  rw [hkey]
  obtain ⟨number, wireType⟩ := key
  cases wireType with
  | varint =>
      refine (follows_readVarint64.map _).congr fun bytes => ?_
      simp only [UnknownValue.cut?, Option.map_map]
      rfl
  | i64 =>
      refine (((follows_readExactly 8).map _).map _).congr fun bytes => ?_
      simp only [UnknownValue.cut?, Option.map_map]
      rfl
  | i32 =>
      refine (((follows_readExactly 4).map _).map _).congr fun bytes => ?_
      simp only [UnknownValue.cut?, Option.map_map]
      rfl
  | len =>
      refine (follows_readBytes.map _).congr fun bytes => ?_
      simp only [cutDelimited?, UnknownValue.cut?, Option.bind_eq_bind, Option.map_bind]
      congr 1
      funext found
      simp only [Function.comp_apply, Option.map_map]
      rfl

/-- A record is captured under the number in its tag, framed by the wire type in it. -/
theorem split_of_readUnknown {tag : UInt32} {field : UnknownField} {after : Reader}
    (hread : readUnknown tag reader = .ok field after) :
    Tag.split tag = .ok ⟨field.number, field.value.wireType⟩ := by
  rw [readUnknown] at hread
  cases hsplit : Tag.split tag with
  | error error =>
      rw [hsplit] at hread
      cases hread
  | ok key =>
      rw [hsplit] at hread
      obtain ⟨number, wireType⟩ := key
      cases wireType <;>
      · obtain ⟨value, middle, -, hstored⟩ := ok_of_bind hread
        cases hstored
        rfl

theorem follows_skipField {tag : UInt32} {key : FieldKey} (hkey : Tag.split tag = .ok key) :
    Follows levels (skipField tag) fun bytes =>
      (UnknownValue.cut? key.wireType bytes).map fun found => ((), found.2) := by
  unfold skipField
  rw [hkey]
  obtain ⟨number, wireType⟩ := key
  cases wireType with
  | varint =>
      refine (follows_readVarint64.map _).congr fun bytes => ?_
      simp only [UnknownValue.cut?, Option.map_map]
      rfl
  | i64 =>
      refine (follows_skipExactly 8).congr fun bytes => ?_
      simp only [UnknownValue.cut?, Option.map_map]
      rfl
  | i32 =>
      refine (follows_skipExactly 4).congr fun bytes => ?_
      simp only [UnknownValue.cut?, Option.map_map]
      rfl
  | len =>
      refine ((follows_readVarint64.map _).bind follows_skipExactly).congr fun bytes => ?_
      simp only [UnknownValue.cut?, Option.bind_eq_bind, Option.map_bind, Option.bind_map]
      congr 1
      funext found
      simp only [Function.comp_apply, Option.map_map]
      rfl

/-! ## Tags and records -/

theorem readTag_past_end (hend : reader.limit ≤ reader.position) :
    readTag reader = .ok 0 { reader with lastTag := 0 } := by
  rw [readTag]
  change (if reader.limit ≤ reader.position then _ else _ : ReaderM UInt32) reader = _
  rw [if_pos hend]
  rfl

theorem readTag_at_end (hsound : Sound levels reader) (hwindow : reader.window = []) :
    readTag reader = .ok 0 (reader.past [] 0) := by
  rw [readTag_past_end ((window_eq_nil_iff hsound).mp hwindow), ← past_window hsound, hwindow]

/-- What reading a tag does with the varint it read. -/
def acceptTag (raw : UInt64) : ReaderM UInt32 := fun reader =>
  if 4294967295 < raw then
    .error (.invalidFieldNumber (UInt32.ofNat (min (raw / 8).toNat 4294967295))) reader
  else
    match Tag.split raw.toUInt32 with
    | .error error => .error error reader
    | .ok _ => .ok raw.toUInt32 { reader with lastTag := raw.toUInt32 }

theorem readTag_before_end (hbefore : reader.position < reader.limit) :
    readTag reader = (readVarint64 >>= acceptTag) reader := by
  rw [readTag]
  change (if reader.limit ≤ reader.position then _ else _ : ReaderM UInt32) reader = _
  rw [if_neg (by omega)]
  refine congrFun (congrArg (readVarint64 >>= ·) ?_) reader
  funext raw after
  dsimp only
  rw [acceptTag]
  split
  · rfl
  · cases Tag.split raw.toUInt32 <;> rfl

/-- Before the end, a tag is read where a key can be cut off, and it becomes the last tag. -/
theorem answers_readTag (hsound : Sound levels reader) (hwindow : reader.window ≠ []) :
    match FieldKey.cut? reader.window with
    | some (key, rest) => rest <:+ reader.window ∧
        readTag reader = .ok (Tag.make key.number key.wireType)
          (reader.past rest (Tag.make key.number key.wireType))
    | none => ∃ error after, readTag reader = .error error after := by
  have hlength := List.length_pos_iff.mpr hwindow
  rw [length_window hsound, remaining] at hlength
  rw [readTag_before_end (by omega)]
  have hread := follows_readVarint64 reader hsound
  unfold FieldKey.cut?
  cases hcut : Varint.cut? reader.window with
  | none =>
      rw [hcut] at hread
      obtain ⟨error, after, hread⟩ := hread
      exact ⟨error, after, bind_error hread acceptTag⟩
  | some found =>
      obtain ⟨raw, rest⟩ := found
      rw [hcut] at hread
      obtain ⟨hrest, tag, hread⟩ := hread
      rw [bind_ok hread acceptTag]
      simp only [Option.bind_eq_bind, Option.bind_some]
      by_cases hraw : raw ≤ 4294967295
      · rw [if_pos hraw]
        cases hsplit : Tag.split raw.toUInt32 with
        | error error =>
            refine ⟨error, reader.past rest tag, ?_⟩
            rw [acceptTag, if_neg (UInt64.not_lt.mpr hraw), hsplit]
        | ok key =>
            obtain ⟨_, htag⟩ := Tag.split_eq_ok_iff.mp hsplit
            refine ⟨hrest, ?_⟩
            rw [acceptTag, if_neg (UInt64.not_lt.mpr hraw), hsplit, ← htag]
            rfl
      · rw [if_neg hraw]
        exact ⟨_, _, if_pos (UInt64.not_le.mp hraw)⟩

/-- Reading the payload of a record does to the state what `step` does with the whole record. -/
def FollowsRecord (levels : Nat) (record : UInt32 → σ → ReaderM σ)
    (step : σ → UnknownField → Option σ) : Prop :=
  ∀ (key : FieldKey) (state : σ) (reader : Reader), Sound levels reader →
    Tag.inRange key.number = true → reader.lastTag = Tag.make key.number key.wireType →
    Answers (record (Tag.make key.number key.wireType) state) reader
      ((UnknownValue.cut? key.wireType reader.window).bind fun found =>
        (step state ⟨key.number, found.1⟩).map fun state => (state, found.2))

theorem answers_readRecords {record : UInt32 → σ → ReaderM σ}
    {step : σ → UnknownField → Option σ} (hrecord : FollowsRecord levels record step)
    {fuel : Nat} {state : σ} (hsound : Sound levels reader)
    (hfuel : reader.window.length < fuel) :
    Answers (readRecords record fuel state) reader
      ((Bytes.split? UnknownField.cut? reader.window).bind fun fields =>
        (fields.foldlM step state).map fun state => (state, [])) := by
  induction fuel generalizing state reader with
  | zero => omega
  | succ fuel ih =>
      rw [readRecords]
      by_cases hwindow : reader.window = []
      · rw [hwindow]
        refine ⟨List.nil_suffix, 0, ?_⟩
        rw [bind_ok (readTag_at_end hsound hwindow)]
        rfl
      · have htag := answers_readTag hsound hwindow
        rw [Bytes.split_of_ne_nil UnknownField.cuts hwindow, UnknownField.cut?]
        cases hkey : FieldKey.cut? reader.window with
        | none =>
            rw [hkey] at htag
            obtain ⟨error, after, htag⟩ := htag
            exact ⟨error, after, bind_error htag _⟩
        | some found =>
            obtain ⟨key, rest⟩ := found
            rw [hkey] at htag
            obtain ⟨hrest, htag⟩ := htag
            obtain ⟨hrange, front, hfront, hdenotes⟩ := FieldKey.cut_eq_some_iff.mp hkey
            have hpositive := Tag.make_ne_zero hrange key.wireType
            have hshort : rest.length < reader.window.length := by
              have hcount := (Varint.decode_count hdenotes).1
              rw [hfront, List.length_append]
              omega
            have hsound' := hsound.past rest (Tag.make key.number key.wireType)
            have hwindow' := window_past hsound hrest (Tag.make key.number key.wireType)
            have hpayload := hrecord key state _ hsound' hrange rfl
            have hboth : Answers (record (Tag.make key.number key.wireType) state >>=
                readRecords record fuel) (reader.past rest (Tag.make key.number key.wireType)) _ :=
              -- The payload may be empty, but the tag took a byte: the fuel left is enough.
              hpayload.bind hsound' fun state' rest' tag _ hrest' => by
                have hless := hrest'.length_le
                rw [hwindow'] at hless
                have hanswers := @ih _ state' (hsound'.past rest' tag)
                rw [window_past hsound' hrest'] at hanswers
                exact hanswers (by omega)
            rw [hwindow'] at hboth
            have hstep : (readTag >>= fun tag => if tag = 0 then pure state else
                record tag state >>= readRecords record fuel) reader =
                (record (Tag.make key.number key.wireType) state >>= readRecords record fuel)
                  (reader.past rest (Tag.make key.number key.wireType)) := by
              rw [bind_ok htag, if_neg hpositive]
            convert hboth.of_past hsound hrest hstep using 1
            simp only [Option.bind_eq_bind, Option.bind_some]
            cases UnknownValue.cut? key.wireType rest with
            | none => rfl
            | some payload =>
                simp only [Option.bind_some, Option.map_some, Option.bind_map, Function.comp_def,
                  List.foldlM_cons, Option.bind_eq_bind]
                cases step state ⟨key.number, payload.1⟩ with
                | none => simp only [Option.bind_none, Option.map_none, Option.bind_fun_none]
                | some state' => rfl

/-- What the records that a byte string splits into do to a state, one after the other. -/
def foldRecords? (step : σ → UnknownField → Option σ) (state : σ) (bytes : Bytes) : Option σ :=
  (Bytes.split? UnknownField.cut? bytes).bind fun fields => fields.foldlM step state

/-- Reading all records folds the step over the records that the window splits into. -/
theorem follows_readToLimit {record : UInt32 → σ → ReaderM σ}
    {step : σ → UnknownField → Option σ} (hrecord : FollowsRecord levels record step) (state : σ) :
    Follows levels (readToLimit record state) fun bytes =>
      (foldRecords? step state bytes).map (·, []) := by
  intro reader hsound
  have hfuel := length_window hsound
  have hanswers : Answers (readRecords record (reader.remaining + 1) state) reader _ :=
    answers_readRecords hrecord hsound (by omega)
  simp only [foldRecords?, Option.map_bind]
  exact hanswers

/-! ## Nested windows -/

/-- The reader after the bound of a payload of `length` bytes is pushed. -/
def entered (reader : Reader) (length : Nat) : Reader :=
  { reader with
    limits := reader.limit :: reader.limits
    limit := reader.position + length }

theorem Sound.entered (hsound : Sound levels reader) {length : Nat}
    (hlength : length ≤ reader.window.length) : Sound levels (reader.entered length) where
  position_le := Nat.le_add_right reader.position length
  limit_le := by
    have hposition := hsound.position_le
    have hlimit := hsound.limit_le
    rw [length_window hsound, remaining] at hlength
    change reader.position + length ≤ reader.buffer.size
    omega
  levels_eq := hsound.levels_eq

theorem window_entered (hsound : Sound levels reader) {length : Nat}
    (hlength : length ≤ reader.window.length) :
    (reader.entered length).window = reader.window.take length := by
  have hposition := hsound.position_le
  rw [window_eq (hsound.entered hlength), window_eq hsound]
  rw [length_window hsound, remaining] at hlength
  change ((reader.buffer.toList.take (reader.position + length)).drop reader.position) = _
  rw [List.drop_take, List.drop_take, List.take_take]
  congr 1
  omega

theorem withoutLimit_past_entered (hsound : Sound levels reader) {length : Nat}
    (hlength : length ≤ reader.window.length) (tag : UInt32) :
    ((reader.entered length).past [] tag).withoutLimit =
      reader.past (reader.window.drop length) tag := by
  have hposition := hsound.position_le
  have hwindow := length_window hsound
  rw [remaining] at hwindow
  simp only [entered, past, withoutLimit, List.length_nil, List.length_drop, Nat.sub_zero]
  congr 1
  omega

theorem pushLimit_eq (hsound : Sound levels reader) (length : Nat) :
    pushLimit length reader =
      if length ≤ reader.window.length then .ok () (reader.entered length)
      else .error (.truncated length reader.remaining) reader := by
  rw [pushLimit, ← length_window hsound]
  by_cases hlength : length ≤ reader.window.length
  · rw [if_pos hlength, if_neg (by omega)]
    rfl
  · rw [if_neg hlength, if_pos (by omega)]

/-- Reads a payload of `length` bytes to its end. -/
def within (length : Nat) (body : ReaderM α) : ReaderM α := do
  pushLimit length
  let value ← body
  popLimit
  return value

theorem follows_within {body : ReaderM α} {inner : Bytes → Option α}
    (hbody : Follows levels body fun bytes => (inner bytes).map (·, [])) (length : Nat) :
    Follows levels (within length body) fun bytes =>
      (Bytes.cut? length bytes).bind fun found => (inner found.1).map (·, found.2) := by
  intro reader hsound
  unfold Bytes.cut?
  dsimp only
  split
  next hlength =>
    have hpush : pushLimit length reader = .ok () (reader.entered length) := by
      rw [pushLimit_eq hsound, if_pos hlength]
    have hanswers := hbody _ (hsound.entered hlength)
    rw [window_entered hsound hlength] at hanswers
    rw [Option.bind_some]
    dsimp only at hanswers ⊢
    cases hinner : inner (reader.window.take length) with
    | none =>
        rw [hinner] at hanswers
        obtain ⟨error, after, hread⟩ := hanswers
        refine ⟨error, after, ?_⟩
        rw [within, bind_ok hpush, bind_error hread]
    | some value =>
        rw [hinner] at hanswers
        obtain ⟨_, tag, hread⟩ := hanswers
        refine ⟨List.drop_suffix length _, tag, ?_⟩
        rw [within, bind_ok hpush, bind_ok hread, ← withoutLimit_past_entered hsound hlength]
        rfl
  next hlength =>
    refine ⟨.truncated length reader.remaining, reader, ?_⟩
    have hpush : pushLimit length reader = .error (.truncated length reader.remaining) reader := by
      rw [pushLimit_eq hsound, if_neg hlength]
    rw [within, bind_error hpush]

theorem follows_oneDeeper {body : ReaderM α} {cut : Bytes → Option (α × Bytes)}
    (hbody : Follows levels body cut) : Follows (levels + 1) (oneDeeper body) cut := by
  intro reader hsound
  have hdeeper : Sound levels { reader with depth := reader.depth + 1 } :=
    ⟨hsound.position_le, hsound.limit_le, by
      have hlevels := hsound.levels_eq
      dsimp only
      omega⟩
  have hanswers := hbody _ hdeeper
  change Answers _ _ (cut reader.window) at hanswers
  cases hcut : cut reader.window with
  | none =>
      rw [hcut] at hanswers
      obtain ⟨error, after, hread⟩ := hanswers
      refine ⟨error, { after with depth := after.depth - 1 }, ?_⟩
      simp only [oneDeeper, hread]
  | some found =>
      rw [hcut] at hanswers
      obtain ⟨hrest, tag, hread⟩ := hanswers
      refine ⟨hrest, tag, ?_⟩
      simp only [oneDeeper, hread]
      rfl

/-- What reading a message does once its length is read. -/
def readMessageOf (body : ReaderM α) (length : Nat) : ReaderM α := fun reader =>
  if reader.config.recursionLimit ≤ reader.depth then
    .error (.recursionLimitExceeded reader.config.recursionLimit) reader
  else
    (within length (oneDeeper body) >>= fun message => do
      modify fun after => { after with lastTag := reader.lastTag }
      return message) reader

theorem readMessage_eq (body : ReaderM α) :
    readMessage body = readLength >>= readMessageOf body := by
  rw [readMessage]
  refine congrArg (readLength >>= ·) ?_
  funext length reader
  rw [readMessageOf]
  split
  next hdeep =>
    change (if reader.config.recursionLimit ≤ reader.depth then _ else _ : ReaderM α) reader = _
    rw [if_pos hdeep]
    rfl
  next hdeep =>
    change (if reader.config.recursionLimit ≤ reader.depth then _ else _ : ReaderM α) reader = _
    rw [if_neg hdeep]
    simp only [within, bind_assoc, pure_bind]

theorem follows_readMessage {body : ReaderM α} {inner : Bytes → Option α}
    (hbody : Follows levels body fun bytes => (inner bytes).map (·, [])) :
    Follows (levels + 1) (readMessage body) fun bytes =>
      (cutDelimited? bytes).bind fun found => (inner found.1).map (·, found.2) := by
  have hmessage : ∀ length, Follows (levels + 1) (readMessageOf body length) fun bytes =>
      (Bytes.cut? length bytes).bind fun found => (inner found.1).map (·, found.2) := by
    intro length reader hsound
    have hdeep : ¬ reader.config.recursionLimit ≤ reader.depth := by
      have hlevels := hsound.levels_eq
      omega
    -- The tag is put back once the message is read, which takes nothing from the window.
    have hrestore : ∀ message : α, Follows (levels + 1)
        (do modify fun after => { after with lastTag := reader.lastTag }
            return message) fun bytes => some (message, bytes) := by
      intro message after hafter
      refine ⟨List.suffix_refl _, reader.lastTag, ?_⟩
      rw [past_window hafter]
      rfl
    have hwhole := ((follows_within (follows_oneDeeper hbody) length).bind hrestore).congr
      fun bytes => Option.bind_fun_some _
    exact (hwhole reader hsound).of_eq (if_neg hdeep)
  rw [readMessage_eq]
  refine ((follows_readVarint64.map UInt64.toNat).bind hmessage).congr fun bytes => ?_
  unfold cutDelimited?
  cases Varint.cut? bytes <;> rfl

/-- At the recursion limit no message is read. -/
theorem follows_readMessage_zero (body : ReaderM α) :
    Follows 0 (readMessage body) fun _ => none := by
  rw [readMessage_eq]
  have hmessage : ∀ length, Follows 0 (readMessageOf body length) fun _ => none := by
    intro length reader hsound
    have hdeep : reader.config.recursionLimit ≤ reader.depth :=
      Nat.sub_eq_zero_iff_le.mp hsound.levels_eq
    exact ⟨_, _, if_pos hdeep⟩
  refine ((follows_readVarint64.map UInt64.toNat).bind hmessage).congr fun bytes => ?_
  exact Option.bind_fun_none _

/-! ## Repeated fields -/

/-- A run of elements is what its bytes split into. -/
theorem readRun_eq {element : ReaderM α} {cut : Bytes → Option (α × Bytes)} (hcuts : Cuts cut)
    (helement : Follows levels element cut) {fuel : Nat} (read : List α)
    (hsound : Sound levels reader) (hfuel : reader.window.length ≤ fuel) :
    match Bytes.split? cut reader.window with
    | some values => ∃ tag, readRun element fuel read reader =
        ⟨read.reverse ++ values, none, reader.past [] tag⟩
    | none => ∃ elements error after, readRun element fuel read reader =
        ⟨elements, some error, after⟩ := by
  have hend : ∀ {reader : Reader}, Sound levels reader → reader.window = [] →
      ¬ reader.position < reader.limit ∧ reader.past [] reader.lastTag = reader := by
    intro reader hsound hwindow
    have hlength := congrArg List.length hwindow
    rw [length_window hsound, remaining, List.length_nil] at hlength
    refine ⟨by omega, ?_⟩
    rw [← hwindow, past_window hsound]
  induction fuel generalizing read reader with
  | zero =>
      have hwindow : reader.window = [] := List.length_eq_zero_iff.mp (by omega)
      rw [hwindow]
      refine ⟨reader.lastTag, ?_⟩
      rw [(hend hsound hwindow).2, List.append_nil, readRun]
  | succ fuel ih =>
      rw [readRun]
      by_cases hwindow : reader.window = []
      · rw [hwindow, if_neg (hend hsound hwindow).1]
        refine ⟨reader.lastTag, ?_⟩
        rw [(hend hsound hwindow).2, List.append_nil]
      · have hlength := List.length_pos_iff.mpr hwindow
        rw [length_window hsound, remaining] at hlength
        have hanswers := helement reader hsound
        rw [if_pos (by omega), Bytes.split_of_ne_nil hcuts hwindow]
        cases hcut : cut reader.window with
        | none =>
            rw [hcut] at hanswers
            obtain ⟨error, after, hread⟩ := hanswers
            refine ⟨read.reverse, error, after, ?_⟩
            rw [hread]
        | some found =>
            obtain ⟨value, rest⟩ := found
            rw [hcut] at hanswers
            obtain ⟨hrest, tag, hread⟩ := hanswers
            obtain ⟨front, hfront, heq⟩ := hcuts _ _ _ hcut
            have hshort := congrArg List.length heq
            have hpositive := List.length_pos_iff.mpr hfront
            rw [List.length_append] at hshort
            have hwindow' := window_past hsound hrest tag
            have hrun := @ih _ (value :: read) (hsound.past rest tag)
              (by rw [hwindow']; omega)
            rw [hwindow'] at hrun
            rw [hread]
            simp only [Option.bind_some]
            cases hsplit : Bytes.split? cut rest with
            | none =>
                rw [hsplit] at hrun
                exact hrun
            | some values =>
                rw [hsplit] at hrun
                obtain ⟨tag', hrun⟩ := hrun
                refine ⟨tag', ?_⟩
                rw [hrun]
                simp only [List.reverse_cons, List.append_assoc, List.cons_append, List.nil_append,
                  past_past]

theorem lastTagIsDelimited_eq {key : FieldKey} (hkey : Tag.inRange key.number = true)
    (htag : reader.lastTag = Tag.make key.number key.wireType) :
    reader.lastTagIsDelimited = (key.wireType == .len) := by
  have hsplit : Tag.split reader.lastTag = .ok key := Tag.split_eq_ok_iff.mpr ⟨hkey, htag⟩
  rw [lastTagIsDelimited, hsplit]

/-- Whether a packed run of `length` bytes can be filled with elements of a wire type. -/
def fillsRun (element : WireType) (length : Nat) : Prop :=
  ∀ width, element.fixedWidth? = some width → length % width = 0

theorem enterPackedRun_fills {element : WireType} {raw : UInt64} {after : Reader}
    (hread : readVarint64 reader = .ok raw after) (hfills : fillsRun element raw.toNat) :
    enterPackedRun element reader = pushLimit raw.toNat after := by
  have hlength : readLength reader = .ok raw.toNat after := bind_ok hread _
  rw [enterPackedRun, bind_ok hlength]
  cases hwidth : element.fixedWidth? with
  | none => rfl
  | some width =>
      change (if raw.toNat % width ≠ 0 then _ else _ : ReaderM Unit) after = _
      rw [if_neg (not_not.mpr (hfills width hwidth))]

theorem enterPackedRun_misfit {element : WireType} {raw : UInt64} {after : Reader}
    (hread : readVarint64 reader = .ok raw after) (hmisfit : ¬ fillsRun element raw.toNat) :
    ∃ error, enterPackedRun element reader = .error error after := by
  have hlength : readLength reader = .ok raw.toNat after := bind_ok hread _
  rw [enterPackedRun, bind_ok hlength]
  cases hwidth : element.fixedWidth? with
  | none =>
      refine absurd (fun width h => ?_) hmisfit
      rw [hwidth] at h
      cases h
  | some width =>
      have hmod : raw.toNat % width ≠ 0 := by
        intro hmod
        refine hmisfit fun width' h => ?_
        rw [hwidth] at h
        cases h
        exact hmod
      refine ⟨.invalidPackedLength width raw.toNat, ?_⟩
      change (if raw.toNat % width ≠ 0 then _ else _ : ReaderM Unit) after = _
      rw [if_pos hmod]
      rfl

theorem answers_none_of_failure {element : WireType} {body : ReaderM α} {elements : List α}
    {error : DecodeError} {after : Reader}
    (hfailure : readOccurrence element body reader = ⟨elements, some error, after⟩) :
    Answers (readRepeated element body) reader none := by
  refine ⟨error, after, ?_⟩
  simp only [readRepeated, hfailure]

/-- A packed run that elements can fill is what its bytes split into. -/
theorem answers_filledRun {element : WireType} {body : ReaderM α}
    {cut : Bytes → Option (α × Bytes)} (hcuts : Cuts cut) (hbody : Follows levels body cut)
    (hsound : Sound levels reader)
    (hpacked : (element != .len && reader.lastTagIsDelimited) = true) {raw : UInt64} {rest : Bytes}
    {tag : UInt32} (hrest : rest <:+ reader.window)
    (hread : readVarint64 reader = .ok raw (reader.past rest tag))
    (hfilled : fillsRun element raw.toNat) :
    Answers (readRepeated element body) reader
      ((Bytes.cut? raw.toNat rest).bind fun found =>
        (Bytes.split? cut found.1).map fun values => (values, found.2)) := by
  have hsound' := hsound.past rest tag
  have hwindow := window_past hsound hrest tag
  have hpush := pushLimit_eq hsound' raw.toNat
  rw [hwindow] at hpush
  have henter := (enterPackedRun_fills hread hfilled).trans hpush
  unfold Bytes.cut?
  by_cases hfits : raw.toNat ≤ rest.length
  · rw [if_pos hfits] at henter
    have hfits' : raw.toNat ≤ (reader.past rest tag).window.length := by rwa [hwindow]
    have hinner := hsound'.entered hfits'
    have hrun := readRun_eq hcuts hbody [] hinner (length_window_le hinner)
    rw [window_entered hsound' hfits', hwindow] at hrun
    rw [if_pos hfits]
    simp only [Option.bind_some]
    cases hsplit : Bytes.split? cut (rest.take raw.toNat) with
    | none =>
        rw [hsplit] at hrun
        obtain ⟨elements, error, after, hrun⟩ := hrun
        apply answers_none_of_failure
        simp only [readOccurrence, if_pos hpacked, henter, hrun]
        rfl
    | some values =>
        rw [hsplit] at hrun
        obtain ⟨tag', hrun⟩ := hrun
        refine ⟨(List.drop_suffix _ _).trans hrest, tag', ?_⟩
        have hafter := withoutLimit_past_entered hsound' hfits' tag'
        rw [hwindow, past_past] at hafter
        simp only [readRepeated, readOccurrence, if_pos hpacked, henter, hrun, hafter,
          List.reverse_nil, List.nil_append]
  · rw [if_neg hfits] at henter
    rw [if_neg hfits]
    apply answers_none_of_failure
    rw [readOccurrence, if_pos hpacked, henter]

/-- Under a length-delimited tag, packable elements are read from a packed run. -/
theorem answers_readRepeated_packed {element : WireType} {body : ReaderM α}
    {cut : Bytes → Option (α × Bytes)} (hcuts : Cuts cut) (hbody : Follows levels body cut)
    (hfills : ∀ payload values, Bytes.split? cut payload = some values →
      fillsRun element payload.length)
    (hsound : Sound levels reader) (helement : element ≠ .len)
    (hdelimited : reader.lastTagIsDelimited = true) :
    Answers (readRepeated element body) reader
      ((cutDelimited? reader.window).bind fun found =>
        (Bytes.split? cut found.1).map fun values => (values, found.2)) := by
  have hpacked : (element != .len && reader.lastTagIsDelimited) = true := by
    rw [hdelimited, Bool.and_true, bne_iff_ne]
    exact helement
  have hread := follows_readVarint64 reader hsound
  unfold cutDelimited?
  cases hcut : Varint.cut? reader.window with
  | none =>
      rw [hcut] at hread
      obtain ⟨error, after, hread⟩ := hread
      have hlength : readLength reader = .error error after := bind_error hread _
      apply answers_none_of_failure
      rw [readOccurrence, if_pos hpacked, enterPackedRun, bind_error hlength]
  | some found =>
      obtain ⟨raw, rest⟩ := found
      rw [hcut] at hread
      obtain ⟨hrest, tag, hread⟩ := hread
      simp only [Option.bind_some]
      by_cases hfilled : fillsRun element raw.toNat
      case pos => exact answers_filledRun hcuts hbody hsound hpacked hrest hread hfilled
      case neg =>
        -- A run of such a length is refused before it is looked at; its bytes would not split.
        have hnone : ((Bytes.cut? raw.toNat rest).bind fun found =>
            (Bytes.split? cut found.1).map fun values => (values, found.2)) = none := by
          cases hpayload : Bytes.cut? raw.toNat rest with
          | none => rfl
          | some payload =>
              obtain ⟨_, hlength⟩ := Bytes.cut_eq_some_iff.mp hpayload
              cases hsplit : Bytes.split? cut payload.1 with
              | none => simp only [Option.bind_some, hsplit, Option.map_none]
              | some values =>
                  have hwhole := hfills _ _ hsplit
                  rw [hlength] at hwhole
                  exact absurd hwhole hfilled
        obtain ⟨error, henter⟩ := enterPackedRun_misfit hread hfilled
        rw [hnone]
        apply answers_none_of_failure
        rw [readOccurrence, if_pos hpacked, henter]

/-- Under any other tag, one element is read. -/
theorem answers_readRepeated_single {element : WireType} {body : ReaderM α}
    {cut : Bytes → Option (α × Bytes)} (hbody : Follows levels body cut)
    (hsound : Sound levels reader) (hsingle : element = .len ∨ reader.lastTagIsDelimited = false) :
    Answers (readRepeated element body) reader
      ((cut reader.window).map fun found => ([found.1], found.2)) := by
  have hunpacked : ¬ (element != .len && reader.lastTagIsDelimited) = true := by
    rcases hsingle with rfl | hsingle
    · simp
    · simp [hsingle]
  have hanswers := hbody reader hsound
  cases hcut : cut reader.window with
  | none =>
      rw [hcut] at hanswers
      obtain ⟨error, after, hread⟩ := hanswers
      refine ⟨error, after, ?_⟩
      simp only [readRepeated, readOccurrence, if_neg hunpacked, hread]
  | some found =>
      rw [hcut] at hanswers
      obtain ⟨hrest, tag, hread⟩ := hanswers
      refine ⟨hrest, tag, ?_⟩
      simp only [readRepeated, readOccurrence, if_neg hunpacked, hread]

end Reader

end ProtoWire
