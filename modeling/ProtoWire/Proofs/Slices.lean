import ProtoWire.Proofs.Balanced
import ProtoWire.Proofs.Slots

/-! # Reading in place

What a balanced read gives depends on the bytes before the innermost end, on the last tag and on how
much deeper messages may nest, but not on the buffer around those bytes. A message read in place is
therefore what its payload decodes as on its own, errors included.
-/

namespace ProtoWire

/-- The error with a recursion limit put in place of the one it tells.
-/
def DecodeError.withLimit (limit : Nat) : DecodeError → DecodeError
  | .recursionLimitExceeded _ => .recursionLimitExceeded limit
  | error => error

theorem DecodeError.withLimit_eq {error : DecodeError}
    (herror : ∀ limit, error ≠ .recursionLimitExceeded limit) (limit : Nat) :
    error.withLimit limit = error := by
  cases error with
  | recursionLimitExceeded own => exact absurd rfl (herror own)
  | _ => rfl

theorem Varint.decode_error {bytes : Bytes} {error : DecodeError}
    (hdecode : Varint.decode bytes = .error error) (limit : Nat) :
    error ≠ .recursionLimitExceeded limit := by
  rintro rfl
  rw [Varint.decode] at hdecode
  split at hdecode
  · cases hdecode
  · split at hdecode <;> cases hdecode

namespace Reader

variable {α β σ : Type} {levels : Nat} {reader first second : Reader}

/-! ## Readers before the same bytes -/

/-- The reader `count` bytes further on, under another last tag. -/
def moved (reader : Reader) (count : Nat) (tag : UInt32) : Reader :=
  { reader with position := reader.position + count, lastTag := tag }

theorem moved_moved (count count' : Nat) (tag tag' : UInt32) :
    (reader.moved count tag).moved count' tag' = reader.moved (count + count') tag' := by
  simp only [moved, Nat.add_assoc]

theorem moved_eq (hsound : Sound levels reader) {count : Nat}
    (hcount : count ≤ reader.window.length) (tag : UInt32) :
    reader.moved count tag = reader.past (reader.window.drop count) tag :=
  congrArg (fun after : Reader => { after with lastTag := tag }) (skip_eq hsound hcount)

/-- The reader behind the first part of its window has the rest left. -/
theorem moved_eq_past (hsound : Sound levels reader) {front rest : Bytes}
    (hwindow : reader.window = front ++ rest) (tag : UInt32) :
    reader.moved front.length tag = reader.past rest tag := by
  have hcount : front.length ≤ reader.window.length := by
    rw [hwindow]
    exact (List.prefix_append front rest).length_le
  rw [moved_eq hsound hcount, hwindow, List.drop_left]

theorem window_moved (hsound : Sound levels reader) {count : Nat}
    (hcount : count ≤ reader.window.length) (tag : UInt32) :
    (reader.moved count tag).window = reader.window.drop count := by
  rw [moved_eq hsound hcount]
  exact window_past hsound (List.drop_suffix count _) tag

theorem Sound.moved (hsound : Sound levels reader) {count : Nat}
    (hcount : count ≤ reader.window.length) (tag : UInt32) :
    Sound levels (reader.moved count tag) := by
  rw [moved_eq hsound hcount]
  exact hsound.past _ tag

/-- Behind the first part of its window a reader stands before the rest. -/
theorem stands_behind (hsound : Sound levels reader) {front rest : Bytes}
    (hwindow : reader.window = front ++ rest) (tag : UInt32) :
    Sound levels (reader.moved front.length tag) ∧
      (reader.moved front.length tag).window = rest := by
  have hrest : rest <:+ reader.window := by
    rw [hwindow]
    exact List.suffix_append front rest
  rw [moved_eq_past hsound hwindow]
  exact ⟨hsound.past rest tag, window_past hsound hrest tag⟩

/-- Readers before the same bytes, with the same number of levels left. -/
structure Twin (levels : Nat) (first second : Reader) : Prop where
  left : Sound levels first
  right : Sound levels second
  window_eq : first.window = second.window

namespace Twin

variable {count : Nat}

theorem moved (htwin : Twin levels first second) (hcount : count ≤ first.window.length)
    (tag : UInt32) : Twin levels (first.moved count tag) (second.moved count tag) where
  left := htwin.left.moved hcount tag
  right := htwin.right.moved (htwin.window_eq ▸ hcount) tag
  window_eq := by
    rw [window_moved htwin.left hcount, window_moved htwin.right (htwin.window_eq ▸ hcount),
      htwin.window_eq]

theorem entered (htwin : Twin levels first second) (hcount : count ≤ first.window.length) :
    Twin levels (first.entered count) (second.entered count) where
  left := htwin.left.entered hcount
  right := htwin.right.entered (htwin.window_eq ▸ hcount)
  window_eq := by
    rw [window_entered htwin.left hcount, window_entered htwin.right (htwin.window_eq ▸ hcount),
      htwin.window_eq]

theorem remaining_eq (htwin : Twin levels first second) : first.remaining = second.remaining := by
  rw [← length_window htwin.left, ← length_window htwin.right, htwin.window_eq]

theorem ahead_eq (htwin : Twin levels first second) (count : Nat) :
    first.ahead count = second.ahead count := by
  rw [ahead_eq_take htwin.left, ahead_eq_take htwin.right, htwin.window_eq]

theorem end_iff (htwin : Twin levels first second) :
    first.limit ≤ first.position ↔ second.limit ≤ second.position := by
  rw [← window_eq_nil_iff htwin.left, ← window_eq_nil_iff htwin.right, htwin.window_eq]

end Twin

/-! ## Results that are alike -/

/-- Results of two readers that differ only in where the readers stand and in the recursion limit
that an error tells. Both readers move by one of some counts and are left under the same tag. -/
def AlikeBy (counts : Nat → Prop) (first second : Reader) :
    EStateM.Result DecodeError Reader α → EStateM.Result DecodeError Reader α → Prop
  | .ok value after, .ok value' after' =>
      value = value' ∧ ∃ count tag, counts count ∧
        after = first.moved count tag ∧ after' = second.moved count tag
  | .error error _, .error error' _ => error = error'.withLimit first.config.recursionLimit
  | _, _ => False

/-- Results of two readers that move within their windows. -/
abbrev Alike (first second : Reader) :
    EStateM.Result DecodeError Reader α → EStateM.Result DecodeError Reader α → Prop :=
  AlikeBy (· ≤ first.window.length) first second

/-- A read that gives the same on readers before the same bytes and under the same tag. -/
def Agrees (read : ReaderM α) : Prop :=
  ∀ levels first second, Twin levels first second → first.lastTag = second.lastTag →
    Alike first second (read first) (read second)

theorem AlikeBy.of_moved {counts counts' : Nat → Prop} {count : Nat} {tag : UInt32}
    {result result' : EStateM.Result DecodeError Reader α}
    (halike : AlikeBy counts (first.moved count tag) (second.moved count tag) result result')
    (hcounts : ∀ further, counts further → counts' (count + further)) :
    AlikeBy counts' first second result result' := by
  cases result <;> cases result'
  case ok.ok =>
    obtain ⟨rfl, further, tag', hfurther, rfl, rfl⟩ := halike
    exact ⟨rfl, count + further, tag', hcounts further hfurther, moved_moved .., moved_moved ..⟩
  all_goals exact halike

theorem Alike.of_moved (htwin : Twin levels first second) {count : Nat} {tag : UInt32}
    (hcount : count ≤ first.window.length)
    {result result' : EStateM.Result DecodeError Reader α}
    (halike : Alike (first.moved count tag) (second.moved count tag) result result') :
    Alike first second result result' := by
  refine AlikeBy.of_moved halike fun further hfurther => ?_
  rw [window_moved htwin.left hcount, List.length_drop] at hfurther
  omega

/-- Reads one after the other are alike if the first are and the second are wherever they start. -/
theorem AlikeBy.bind {counts counts' : Nat → Prop} {read : ReaderM α} {next : α → ReaderM β}
    (hread : AlikeBy counts first second (read first) (read second))
    (hnext : ∀ value count tag, counts count →
      read first = .ok value (first.moved count tag) →
      AlikeBy counts' first second (next value (first.moved count tag))
        (next value (second.moved count tag))) :
    AlikeBy counts' first second ((read >>= next) first) ((read >>= next) second) := by
  cases hfirst : read first <;> cases hsecond : read second <;> rw [hfirst, hsecond] at hread
  case ok.ok value after value' after' =>
    obtain ⟨rfl, count, tag, hcount, rfl, rfl⟩ := hread
    rw [bind_ok hfirst, bind_ok hsecond]
    exact hnext value count tag hcount hfirst
  case error.error error after error' after' =>
    rw [bind_error hfirst, bind_error hsecond]
    exact hread
  all_goals exact hread.elim

theorem Agrees.bind {read : ReaderM α} {next : α → ReaderM β} (hread : Agrees read)
    (hnext : ∀ value, Agrees (next value)) : Agrees (read >>= next) := by
  intro levels first second htwin htag
  refine (hread levels first second htwin htag).bind fun value count tag hcount _ => ?_
  exact (hnext value levels _ _ (htwin.moved hcount tag) rfl).of_moved htwin hcount

/-! ## Single reads -/

theorem agrees_pure (value : α) : Agrees (Pure.pure value : ReaderM α) :=
  fun _ first _ _ htag => ⟨rfl, 0, first.lastTag, Nat.zero_le _, rfl, by rw [htag]; rfl⟩

theorem agrees_throw {error : DecodeError} (herror : ∀ limit, error ≠ .recursionLimitExceeded limit) :
    Agrees (throw error : ReaderM α) :=
  fun _ _ _ _ _ => (error.withLimit_eq herror _).symm

theorem alike_readVarint64 (htwin : Twin levels first second)
    (htag : first.lastTag = second.lastTag) :
    Alike first second (readVarint64 first) (readVarint64 second) := by
  rw [readVarint64, readVarint64, ← htwin.ahead_eq, ahead_eq_take htwin.left]
  cases hdecode : Varint.decode (first.window.take Varint.maxLength) with
  | error error => exact (error.withLimit_eq (Varint.decode_error hdecode) _).symm
  | ok found =>
      have hcount := (Varint.decode_count hdecode).2
      rw [List.length_take] at hcount
      exact ⟨rfl, found.2, first.lastTag, by omega, rfl, by rw [htag]; rfl⟩

theorem agrees_readVarint64 : Agrees readVarint64 := fun _ _ _ htwin => alike_readVarint64 htwin

theorem agrees_readExactly (count : Nat) : Agrees (readExactly count) := by
  intro levels first second htwin htag
  rw [readExactly, readExactly, ← htwin.remaining_eq, ← htwin.ahead_eq]
  split
  next => exact rfl
  next hcount =>
    rw [← length_window htwin.left] at hcount
    exact ⟨rfl, count, first.lastTag, not_lt.mp hcount, rfl, by rw [htag]; rfl⟩

theorem agrees_skipExactly (count : Nat) : Agrees (skipExactly count) := by
  intro levels first second htwin htag
  rw [skipExactly, skipExactly, ← htwin.remaining_eq]
  split
  next => exact rfl
  next hcount =>
    rw [← length_window htwin.left] at hcount
    exact ⟨rfl, count, first.lastTag, not_lt.mp hcount, rfl, by rw [htag]; rfl⟩

/-! ## Nesting and runs -/

theorem agrees_within {body : ReaderM α} (length : Nat) (hbody : Agrees body) :
    Agrees (within length body) := by
  intro levels first second htwin htag
  have hfirst := pushLimit_eq htwin.left length
  have hsecond := pushLimit_eq htwin.right length
  rw [← htwin.window_eq] at hsecond
  rw [within]
  by_cases hlength : length ≤ first.window.length
  · rw [if_pos hlength] at hfirst hsecond
    rw [bind_ok hfirst, bind_ok hsecond]
    have hinner := hbody levels _ _ (htwin.entered hlength) htag
    cases hread : body (first.entered length) <;> cases hread' : body (second.entered length) <;>
      rw [hread, hread'] at hinner
    case ok.ok value after value' after' =>
      obtain ⟨rfl, count, tag, hcount, rfl, rfl⟩ := hinner
      rw [window_entered htwin.left hlength, List.length_take] at hcount
      rw [bind_ok hread, bind_ok hread']
      -- The bound that was pushed is the only one taken back.
      exact ⟨rfl, count, tag, by omega, rfl, rfl⟩
    case error.error error after error' after' =>
      rw [bind_error hread, bind_error hread']
      exact hinner
    all_goals exact hinner.elim
  · rw [if_neg hlength] at hfirst hsecond
    rw [bind_error hfirst, bind_error hsecond, htwin.remaining_eq]
    exact rfl

theorem agrees_oneDeeper {body : ReaderM α} (hbody : Agrees body) : Agrees (oneDeeper body) := by
  intro levels first second htwin htag
  have hdeeper : ∀ {reader : Reader}, Sound levels reader →
      Sound (levels - 1) { reader with depth := reader.depth + 1 } := fun hsound =>
    ⟨hsound.position_le, hsound.limit_le, by rw [← hsound.levels_eq]; rfl⟩
  have hinner := hbody (levels - 1) { first with depth := first.depth + 1 }
    { second with depth := second.depth + 1 }
    ⟨hdeeper htwin.left, hdeeper htwin.right, htwin.window_eq⟩ htag
  rw [oneDeeper, oneDeeper]
  cases hread : body { first with depth := first.depth + 1 } <;>
    cases hread' : body { second with depth := second.depth + 1 } <;> rw [hread, hread'] at hinner
  case ok.ok value after value' after' =>
    obtain ⟨rfl, count, tag, hcount, rfl, rfl⟩ := hinner
    exact ⟨rfl, count, tag, hcount, rfl, rfl⟩
  all_goals exact hinner

theorem readRun_at_end {element : ReaderM α} (hend : reader.limit ≤ reader.position) (fuel : Nat)
    (read : List α) : readRun element fuel read reader = ⟨read.reverse, none, reader⟩ := by
  cases fuel with
  | zero => rfl
  | succ fuel => rw [readRun, if_neg (not_lt.mpr hend)]

/-- Fuel for all bytes before the end is fuel for the whole run. -/
theorem alike_readRun {element : ReaderM α} (helement : Agrees element)
    (hadvances : Advances element) {fuel fuel' : Nat} (read : List α)
    (htwin : Twin levels first second) (htag : first.lastTag = second.lastTag)
    (hfuel : first.window.length ≤ fuel) (hfuel' : second.window.length ≤ fuel') :
    Alike first second (readRun element fuel read first).result
      (readRun element fuel' read second).result := by
  induction fuel generalizing fuel' read first second with
  | zero =>
      have hwindow : first.window = [] := List.length_eq_zero_iff.mp (by omega)
      have hend := (window_eq_nil_iff htwin.left).mp hwindow
      rw [readRun_at_end hend, readRun_at_end (htwin.end_iff.mp hend)]
      exact agrees_pure read.reverse levels first second htwin htag
  | succ fuel ih =>
      by_cases hend : first.limit ≤ first.position
      · rw [readRun_at_end hend, readRun_at_end (htwin.end_iff.mp hend)]
        exact agrees_pure read.reverse levels first second htwin htag
      · have hend' := htwin.end_iff.not.mp hend
        cases fuel' with
        | zero =>
            have hwindow := List.length_eq_zero_iff.mp (Nat.le_zero.mp hfuel')
            exact absurd ((window_eq_nil_iff htwin.right).mp hwindow) hend'
        | succ fuel' =>
            rw [readRun, readRun, if_pos (not_le.mp hend), if_pos (not_le.mp hend')]
            have hfirst := helement levels first second htwin htag
            cases hread : element first <;> cases hread' : element second <;>
              rw [hread, hread'] at hfirst
            case ok.ok value after value' after' =>
              obtain ⟨rfl, count, tag, hcount, rfl, rfl⟩ := hfirst
              have hshort : 0 < count := by simpa [moved] using hadvances _ _ _ hread
              have htwin' := htwin.moved hcount tag
              refine Alike.of_moved htwin hcount (ih (value :: read) htwin' rfl ?_ ?_)
              · rw [window_moved htwin.left hcount, List.length_drop]
                omega
              · rw [window_moved htwin.right (htwin.window_eq ▸ hcount), List.length_drop]
                omega
            case error.error error after error' after' => exact hfirst
            all_goals exact hfirst.elim

theorem agrees_readElements {body : ReaderM α} (hbody : Agrees body) (hadvances : Advances body) :
    Agrees (readElements body) := fun _ _ _ htwin htag =>
  alike_readRun hbody hadvances [] htwin htag (length_window_le htwin.left)
    (length_window_le htwin.right)

/-! ## Records -/

/-- A tag other than 0 takes at least one byte; the tag 0 is given at the end only. -/
theorem readTag_ok {tag : UInt32} {after : Reader} (hread : readTag reader = .ok tag after) :
    if tag = 0 then reader.limit ≤ reader.position else reader.position < after.position := by
  by_cases hend : reader.limit ≤ reader.position
  · rw [readTag_past_end hend] at hread
    cases hread
    exact hend
  · rw [readTag_before_end (not_le.mp hend)] at hread
    obtain ⟨raw, middle, hraw, haccept⟩ := ok_of_bind hread
    rw [acceptTag] at haccept
    split at haccept
    · cases haccept
    · cases hsplit : Tag.split raw.toUInt32 with
      | error error =>
          rw [hsplit] at haccept
          cases haccept
      | ok key =>
          rw [hsplit] at haccept
          cases haccept
          have hnonzero : raw.toUInt32 ≠ 0 := by
            intro hzero
            rw [hzero] at hsplit
            cases hsplit
          rw [if_neg hnonzero]
          exact advances_readVarint64 reader raw middle hraw

/-- What reading a tag gives does not depend on the tag before. -/
theorem alike_readTag (htwin : Twin levels first second) :
    Alike first second (readTag first) (readTag second) := by
  by_cases hend : first.limit ≤ first.position
  · rw [readTag_past_end hend, readTag_past_end (htwin.end_iff.mp hend)]
    exact ⟨rfl, 0, 0, Nat.zero_le _, rfl, rfl⟩
  · have hend' := htwin.end_iff.not.mp hend
    rw [readTag_before_end (not_le.mp hend), readTag_before_end (not_le.mp hend')]
    cases hdecode : Varint.decode first.window with
    | error error =>
        have hread' := readVarint64_error htwin.right (htwin.window_eq ▸ hdecode)
        rw [bind_error (readVarint64_error htwin.left hdecode), bind_error hread']
        exact (error.withLimit_eq (Varint.decode_error hdecode) _).symm
    | ok found =>
        obtain ⟨raw, count⟩ := found
        have hread' := readVarint64_ok htwin.right (htwin.window_eq ▸ hdecode)
        have hcount := (Varint.decode_count hdecode).2
        rw [bind_ok (readVarint64_ok htwin.left hdecode), bind_ok hread', acceptTag, acceptTag]
        by_cases hraw : 4294967295 < raw
        · rw [if_pos hraw, if_pos hraw]
          exact rfl
        · rw [if_neg hraw, if_neg hraw]
          cases hsplit : Tag.split raw.toUInt32 with
          | error error => exact (error.withLimit_eq (split_error hsplit).1 _).symm
          | ok key => exact ⟨rfl, count, raw.toUInt32, hcount, rfl, rfl⟩

/-- Results of two readers that both move to the ends of their windows. -/
abbrev AlikeToEnd (first second : Reader) :
    EStateM.Result DecodeError Reader α → EStateM.Result DecodeError Reader α → Prop :=
  AlikeBy (· = first.window.length) first second

theorem AlikeToEnd.of_moved (htwin : Twin levels first second) {count : Nat} {tag : UInt32}
    (hcount : count ≤ first.window.length)
    {result result' : EStateM.Result DecodeError Reader α}
    (halike : AlikeToEnd (first.moved count tag) (second.moved count tag) result result') :
    AlikeToEnd first second result result' := by
  refine AlikeBy.of_moved halike fun further hfurther => ?_
  rw [window_moved htwin.left hcount, List.length_drop] at hfurther
  omega

theorem AlikeToEnd.alike {result result' : EStateM.Result DecodeError Reader α}
    (halike : AlikeToEnd first second result result') : Alike first second result result' := by
  cases result <;> cases result'
  case ok.ok =>
    obtain ⟨rfl, count, tag, rfl, rfl, rfl⟩ := halike
    exact ⟨rfl, _, tag, Nat.le_refl _, rfl, rfl⟩
  all_goals exact halike

theorem alikeToEnd_readRecords {record : UInt32 → σ → ReaderM σ}
    (hrecord : ∀ tag state, Agrees (record tag state)) {fuel : Nat} (state : σ)
    (htwin : Twin levels first second) (hfuel : first.window.length < fuel) :
    AlikeToEnd first second (readRecords record fuel state first)
      (readRecords record fuel state second) := by
  induction fuel generalizing state first second with
  | zero => omega
  | succ fuel ih =>
      refine (alike_readTag htwin).bind fun tag count tag' hcount hread => ?_
      have hok := readTag_ok hread
      by_cases hzero : tag = 0
      · rw [if_pos hzero] at hok
        have hwindow := (window_eq_nil_iff htwin.left).mpr hok
        rw [hwindow, List.length_nil, Nat.le_zero] at hcount
        rw [if_pos hzero, hcount]
        exact ⟨rfl, 0, tag', by rw [hwindow, List.length_nil], rfl, rfl⟩
      · rw [if_neg hzero] at hok ⊢
        have htwin' := htwin.moved hcount tag'
        have hpayload := hrecord tag state levels _ _ htwin' rfl
        have hshort : 0 < count := by simpa [moved] using hok
        have hlength : (first.moved count tag').window.length < fuel := by
          rw [window_moved htwin.left hcount, List.length_drop]
          omega
        have hrest : AlikeToEnd (first.moved count tag') (second.moved count tag')
            ((record tag state >>= readRecords record fuel) (first.moved count tag'))
            ((record tag state >>= readRecords record fuel) (second.moved count tag')) := by
          refine hpayload.bind fun state' count' tag'' hcount' _ => ?_
          have hfuel' : ((first.moved count tag').moved count' tag'').window.length < fuel := by
            rw [window_moved htwin'.left hcount', List.length_drop]
            omega
          exact (ih state' (htwin'.moved hcount' tag'') hfuel').of_moved htwin' hcount'
        exact hrest.of_moved htwin hcount

theorem alikeToEnd_readToLimit {record : UInt32 → σ → ReaderM σ}
    (hrecord : ∀ tag state, Agrees (record tag state)) (state : σ)
    (htwin : Twin levels first second) :
    AlikeToEnd first second (readToLimit record state first) (readToLimit record state second) := by
  have hfuel : first.window.length < first.remaining + 1 := by
    rw [length_window htwin.left]
    exact Nat.lt_succ_self _
  have hrecords := alikeToEnd_readRecords hrecord state htwin hfuel
  have hsecond : readToLimit record state second =
      readRecords record (first.remaining + 1) state second := by
    rw [htwin.remaining_eq]
    rfl
  rw [hsecond]
  exact hrecords

theorem Balanced.agrees {read : ReaderM α} (hread : Balanced read) : Agrees read := by
  induction hread with
  | pure value => exact agrees_pure value
  | fail error herror => exact agrees_throw herror
  | tooDeep => exact fun _ _ _ _ _ => rfl
  | bind _ _ ihread ihnext => exact ihread.bind ihnext
  | varint => exact agrees_readVarint64
  | exactly count => exact agrees_readExactly count
  | skip count => exact agrees_skipExactly count
  | within length _ ih => exact agrees_within length ih
  | deeper _ ih => exact agrees_oneDeeper ih
  | records _ state ih =>
      exact fun levels first second htwin _ => (alikeToEnd_readToLimit ih state htwin).alike
  | elements _ hadvances ih => exact agrees_readElements ih hadvances
  | byTag read _ ih =>
      intro levels first second htwin htag
      change Alike first second (read first.lastTag first) (read second.lastTag second)
      rw [← htag]
      exact ih first.lastTag levels first second htwin htag
  | byLevels read _ ih =>
      intro levels first second htwin htag
      change Alike first second (read (first.config.recursionLimit - first.depth) first)
        (read (second.config.recursionLimit - second.depth) second)
      rw [htwin.left.levels_eq, htwin.right.levels_eq]
      exact ih levels levels first second htwin htag
  | setTag tag => exact fun _ _ _ _ _ => ⟨rfl, 0, tag, Nat.zero_le _, rfl, rfl⟩

/-- A message body takes all bytes before the end, and gives the same wherever they lie. -/
theorem alikeToEnd_readBody (catalog : Catalog) (name : String) (htwin : Twin levels first second) :
    AlikeToEnd first second (catalog.readBody name first) (catalog.readBody name second) := by
  have hschema : ∀ {body : String → ReaderM Message} (schema : MessageSchema),
      (∀ name, Balanced (body name)) → AlikeToEnd first second
        (schema.readBody catalog body first) (schema.readBody catalog body second) := by
    intro body schema hbody
    have hrecord := fun tag state =>
      ((modular_readRecord catalog schema tag state).balanced hbody).agrees
    refine (alikeToEnd_readToLimit hrecord _ htwin).bind fun gathered count tag hcount _ => ?_
    cases hfinish : finishEntries catalog schema.entries gathered.slots with
    | ok contents => exact ⟨rfl, count, tag, hcount, rfl, rfl⟩
    | error error =>
        obtain ⟨entry, _, rfl⟩ := finishEntries_error hfinish
        exact rfl
  have hlevels : ∀ {reader : Reader}, Sound levels reader →
      catalog.readBody name reader = catalog.readBodyWithin levels name reader := by
    intro reader hsound
    rw [← hsound.levels_eq]
    rfl
  rw [hlevels htwin.left, hlevels htwin.right]
  cases levels with
  | zero => exact hschema _ fun _ => .tooDeep
  | succ levels => exact hschema _ (balanced_readBodyWithin catalog levels)

/-! ## Messages in place -/

/-- What a read gives, without the reader after it. -/
def outcome (reader : Reader) (read : ReaderM α) : Except DecodeError α :=
  match read reader with
  | .ok value _ => .ok value
  | .error error _ => .error error

/-- The limits on what is decoded a number of messages further down. -/
def configBelow (reader : Reader) (depth : Nat) : ReaderConfig :=
  { reader.config with recursionLimit := reader.config.recursionLimit - depth }

/-- The reader of a payload of `length` bytes behind the next `count` bytes. -/
def payload (reader : Reader) (count length : Nat) : Reader :=
  { (reader.skip count).entered length with depth := reader.depth + 1 }

theorem oneDeeper_ok {body : ReaderM α} {value : α} {after : Reader}
    (hbody : body { reader with depth := reader.depth + 1 } = .ok value after) :
    oneDeeper body reader = .ok value { after with depth := after.depth - 1 } := by
  rw [oneDeeper, hbody]

theorem oneDeeper_error {body : ReaderM α} {error : DecodeError} {after : Reader}
    (hbody : body { reader with depth := reader.depth + 1 } = .error error after) :
    oneDeeper body reader = .error error { after with depth := after.depth - 1 } := by
  rw [oneDeeper, hbody]

theorem skip_skip (count count' : Nat) :
    (reader.skip count).skip count' = reader.skip (count + count') := by
  simp only [skip, Nat.add_assoc]

section InPlace

variable {length : UInt64} {count : Nat} (hsound : Sound (levels + 1) reader)
  (hlength : Varint.decode reader.window = .ok (length, count))
  (hfits : count + length.toNat ≤ reader.window.length)
include hsound hlength hfits

theorem twin_payload : Twin levels (reader.payload count length.toNat)
    (.ofBytes ((reader.window.drop count).take length.toNat)
      (reader.configBelow (reader.depth + 1))) := by
  have hcount := (Varint.decode_count hlength).2
  have hafter : Sound (levels + 1) (reader.skip count) := hsound.moved hcount reader.lastTag
  have hwindow : (reader.skip count).window = reader.window.drop count :=
    window_moved hsound hcount reader.lastTag
  have hinside : length.toNat ≤ (reader.skip count).window.length := by
    rw [hwindow, List.length_drop]
    omega
  have hbelow : (reader.configBelow (reader.depth + 1)).recursionLimit = levels := by
    have hlevels := hsound.levels_eq
    dsimp only [configBelow]
    omega
  have hentered := hafter.entered hinside
  refine ⟨⟨hentered.position_le, hentered.limit_le, hbelow⟩, hbelow ▸ sound_ofBytes _ _, ?_⟩
  rw [window_ofBytes, ← hwindow]
  exact window_entered hafter hinside

theorem readMessage_eq_payload (body : ReaderM α) :
    readMessage body reader = (oneDeeper body >>= fun message => do
      popLimit
      modify fun after => { after with lastTag := reader.lastTag }
      return message) ((reader.skip count).entered length.toNat) := by
  have hcount := (Varint.decode_count hlength).2
  have hread : readLength reader = .ok length.toNat (reader.skip count) :=
    bind_ok (readVarint64_ok hsound hlength) _
  have hdeep : ¬ (reader.skip count).config.recursionLimit ≤ (reader.skip count).depth := by
    have hlevels := hsound.levels_eq
    change ¬ reader.config.recursionLimit ≤ reader.depth
    omega
  have hpush : pushLimit length.toNat (reader.skip count) =
      .ok () ((reader.skip count).entered length.toNat) := by
    have hafter : Sound (levels + 1) (reader.skip count) := hsound.moved hcount reader.lastTag
    have hwindow : (reader.skip count).window = reader.window.drop count :=
      window_moved hsound hcount reader.lastTag
    rw [pushLimit_eq hafter, if_pos]
    rw [hwindow, List.length_drop]
    omega
  rw [readMessage_eq, bind_ok hread, readMessageOf, if_neg hdeep, within]
  simp only [bind_assoc, pure_bind]
  rw [bind_ok hpush]
  rfl

/-- A message in place is what its payload decodes as one level further down, and reading it leaves
the reader behind the payload. -/
theorem readMessage_in_place (catalog : Catalog) (name : String) :
    match catalog.readMessage name reader, catalog.decode name
        ((reader.window.drop count).take length.toNat) (reader.configBelow (reader.depth + 1)) with
    | .ok message after, .ok message' =>
        message = message' ∧ after = reader.skip (count + length.toNat)
    | .error error _, .error error' => error = error'.withLimit reader.config.recursionLimit
    | _, _ => False := by
  have htwin := twin_payload hsound hlength hfits
  have hbody := alikeToEnd_readBody catalog name htwin
  have hsize : (reader.payload count length.toNat).window.length = length.toNat := by
    rw [htwin.window_eq, window_ofBytes, List.length_take, List.length_drop]
    omega
  rw [Catalog.readMessage, readMessage_eq_payload hsound hlength hfits, Catalog.decode,
    Catalog.decodeWith]
  cases hin : catalog.readBody name (reader.payload count length.toNat) <;>
    cases hout : catalog.readBody name (.ofBytes ((reader.window.drop count).take length.toNat)
      (reader.configBelow (reader.depth + 1))) <;> rw [hin, hout] at hbody
  case ok.ok message after message' after' =>
    obtain ⟨rfl, _, tag, rfl, rfl, rfl⟩ := hbody
    have hdeeper : oneDeeper (catalog.readBody name) ((reader.skip count).entered length.toNat) =
        .ok message (((reader.skip count).entered length.toNat).moved length.toNat tag) := by
      rw [hsize] at hin
      exact oneDeeper_ok hin
    rw [bind_ok hdeeper, ← skip_skip]
    exact ⟨rfl, rfl⟩
  case error.error error after error' after' =>
    rw [bind_error (oneDeeper_error hin)]
    exact hbody
  all_goals exact hbody.elim

theorem outcome_readMessage (catalog : Catalog) (name : String) :
    reader.outcome (catalog.readMessage name) =
      (catalog.decode name ((reader.window.drop count).take length.toNat)
        (reader.configBelow (reader.depth + 1))).mapError
          (·.withLimit reader.config.recursionLimit) := by
  have hsame := readMessage_in_place hsound hlength hfits catalog name
  rw [outcome]
  cases hread : catalog.readMessage name reader <;>
    cases hdecode : catalog.decode name ((reader.window.drop count).take length.toNat)
      (reader.configBelow (reader.depth + 1)) <;> rw [hread, hdecode] at hsame
  case ok.ok message after message' => exact congrArg Except.ok hsame.1
  case error.error error after error' => exact congrArg Except.error hsame
  all_goals exact hsame.elim

theorem readMessage_leaves (catalog : Catalog) {name : String} {message : Message} {after : Reader}
    (hread : catalog.readMessage name reader = .ok message after) :
    after = reader.skip (count + length.toNat) := by
  have hsame := readMessage_in_place hsound hlength hfits catalog name
  rw [hread] at hsame
  cases hdecode : catalog.decode name ((reader.window.drop count).take length.toNat)
      (reader.configBelow (reader.depth + 1)) with
  | ok message' =>
      rw [hdecode] at hsame
      exact hsame.2
  | error error =>
      rw [hdecode] at hsame
      exact hsame.elim

end InPlace

end Reader

namespace Catalog

/-- Decoding in place is decoding the slice. A message read in place gives the message or the error
that its payload decodes as one level further down, whatever lies around the payload, and success
leaves the reader behind the payload with nothing else changed. So does the message behind the
length in front of a byte string, whatever its tail. -/
theorem decode_in_place (catalog : Catalog) (name : String) :
    (∀ (reader : Reader) (length : UInt64) (count : Nat),
      reader.position ≤ reader.limit → reader.limit ≤ reader.buffer.size →
      reader.depth < reader.config.recursionLimit →
      Varint.decode reader.window = .ok (length, count) →
      count + length.toNat ≤ reader.window.length →
      reader.outcome (catalog.readMessage name) =
          (catalog.decode name ((reader.window.drop count).take length.toNat)
            (reader.configBelow (reader.depth + 1))).mapError
              (·.withLimit reader.config.recursionLimit) ∧
        ∀ message after, catalog.readMessage name reader = .ok message after →
          after = reader.skip (count + length.toNat)) ∧
    ∀ (front body tail : Bytes) (length : UInt64) (config : ReaderConfig),
      Varint.decode front = .ok (length, front.length) → length.toNat = body.length →
      0 < config.recursionLimit →
      catalog.decodeDelimited name (front ++ body ++ tail) config =
        (catalog.decode name body
          { config with recursionLimit := config.recursionLimit - 1 }).mapError
            (·.withLimit config.recursionLimit) := by
  constructor
  · intro reader length count hposition hlimit hdepth hlength hfits
    obtain ⟨levels, hlevels⟩ := Nat.exists_eq_succ_of_ne_zero (Nat.sub_ne_zero_of_lt hdepth)
    have hsound : Reader.Sound (levels + 1) reader := ⟨hposition, hlimit, hlevels⟩
    exact ⟨Reader.outcome_readMessage hsound hlength hfits catalog name, fun message after =>
      Reader.readMessage_leaves hsound hlength hfits catalog⟩
  · intro front body tail length config hlength hbody hlimit
    obtain ⟨levels, hlevels⟩ := Nat.exists_eq_succ_of_ne_zero hlimit.ne'
    have hsound := Reader.sound_ofBytes (front ++ body ++ tail) config
    rw [hlevels] at hsound
    have hwhole : Varint.decode (Reader.ofBytes (front ++ body ++ tail) config).window =
        .ok (length, front.length) := by
      rw [Reader.window_ofBytes, List.append_assoc]
      have hfront := Varint.decode_take_append hlength (body ++ tail)
      rwa [List.take_length] at hfront
    have hfits : front.length + length.toNat ≤
        (Reader.ofBytes (front ++ body ++ tail) config).window.length := by
      rw [Reader.window_ofBytes, List.length_append, List.length_append, hbody]
      exact Nat.le_add_right _ _
    have hsame := Reader.outcome_readMessage hsound hwhole hfits catalog name
    rw [Reader.window_ofBytes, List.append_assoc, List.drop_left, hbody, List.take_left] at hsame
    rw [List.append_assoc]
    exact hsame

/-- A tree between other bytes, three messages down where four are allowed: the grandchild is one
too many, in place as on its own. -/
theorem tree_decode_in_place :
    let trees : Catalog := ⟨[("Tree", Samples.tree)]⟩
    let reader : Reader := ⟨#[255, 4, 42, 2, 42, 0, 7, 255], 1, 7, [8], 34, 2, { recursionLimit := 4 }⟩
    Varint.decode reader.window = .ok (4, 1) ∧
      trees.decode "Tree" [42, 2, 42, 0] { recursionLimit := 1 } =
        .error (.recursionLimitExceeded 1) ∧
      reader.outcome (trees.readMessage "Tree") = .error (.recursionLimitExceeded 4) ∧
      trees.decodeDelimited "Tree" [4, 42, 2, 42, 0, 7, 255] { recursionLimit := 2 } =
        .error (.recursionLimitExceeded 2) := by
  intro trees reader
  have hlength : Varint.decode reader.window = .ok (4, 1) := rfl
  have hslice : trees.decode "Tree" [42, 2, 42, 0] { recursionLimit := 1 } =
      .error (.recursionLimitExceeded 1) := rfl
  obtain ⟨hreader, hdelimited⟩ := decode_in_place trees "Tree"
  refine ⟨hlength, hslice, ?_, ?_⟩
  · rw [(hreader reader 4 1 (by decide) (by decide) (by decide) hlength (by decide)).1]
    exact congrArg (Except.mapError (DecodeError.withLimit 4)) hslice
  · have hfront := hdelimited [4] [42, 2, 42, 0] [7, 255] 4 { recursionLimit := 2 } rfl rfl (by decide)
    exact hfront.trans (congrArg (Except.mapError (DecodeError.withLimit 2)) hslice)

end Catalog

end ProtoWire
