import ProtoWire.Message.Decode
import ProtoWire.Proofs.Window

/-! # Reads that take back their bounds

Whatever is read of a message type is put together from a few reads of the cursor, and a bound that
is pushed on the way is taken back when the read succeeds. What holds of the few reads, and of reads
put together from reads that it holds of, therefore holds of every message type.
-/

namespace ProtoWire

/-! ## Message types mentioned
-/

/-- Whether values of a type may hold a message of the type named. -/
def ValueType.Mentions : ValueType → String → Prop
  | .scalar _, _ | .enumeration _, _ => False
  | .message name, other => name = other
  | .option inner, other => inner.Mentions other
  | .converted _ wire, other => wire.Mentions other

def OneofSchema.Mentions (schema : OneofSchema) (name : String) : Prop :=
  ∃ member ∈ schema.members, member.type.Mentions name

def Entry.Mentions : Entry → String → Prop
  | .singular _ _ type _ _, name => type.Mentions name
  | .repeated _ _ element _, name => element.Mentions name
  | .map _ _ _ value _, name => value.Mentions name
  | .oneof _ schema _, name => schema.Mentions name

/-- Whether messages of a type may hold a message of the type named, directly. -/
def MessageSchema.Mentions (schema : MessageSchema) (name : String) : Prop :=
  ∃ entry ∈ schema.entries, entry.Mentions name

/-- Whether an entry is an error when it is missing. -/
def Entry.isRequired : Entry → Bool
  | .singular _ _ _ _ nonNull => nonNull
  | .repeated .. | .map .. => false
  | .oneof _ _ required => required

namespace Reader

variable {α β σ : Type}

/-- The result of a read that gives an occurrence. -/
def Occurrence.result (occurrence : Occurrence α) : EStateM.Result DecodeError Reader (List α) :=
  match occurrence.failure with
  | none => .ok occurrence.elements occurrence.reader
  | some error => .error error occurrence.reader

/-- Reads elements up to the innermost end. -/
def readElements (body : ReaderM α) : ReaderM (List α) := fun reader =>
  (readRun body (reader.buffer.size - reader.position) [] reader).result

/-- A read that takes at least one byte when it succeeds. -/
def Advances (read : ReaderM α) : Prop :=
  ∀ reader value after, read reader = .ok value after → reader.position < after.position

/-- Reads put together from reads of the cursor, with every bound taken back. A read may depend on
the last tag and on how much deeper messages may nest; its errors name nothing else of the reader.
-/
inductive Balanced : {α : Type} → ReaderM α → Prop
  | pure {α : Type} (value : α) : Balanced (Pure.pure value : ReaderM α)
  | fail {α : Type} (error : DecodeError)
      (herror : ∀ limit, error ≠ .recursionLimitExceeded limit) : Balanced (throw error : ReaderM α)
  | tooDeep {α : Type} : Balanced
      (do throw (.recursionLimitExceeded (← get).config.recursionLimit) : ReaderM α)
  | bind {α β : Type} {read : ReaderM α} {next : α → ReaderM β} (hread : Balanced read)
      (hnext : ∀ value, Balanced (next value)) : Balanced (read >>= next)
  | varint : Balanced readVarint64
  | exactly (count : Nat) : Balanced (readExactly count)
  | skip (count : Nat) : Balanced (skipExactly count)
  | within {α : Type} (length : Nat) {body : ReaderM α} (hbody : Balanced body) :
      Balanced (within length body)
  | deeper {α : Type} {body : ReaderM α} (hbody : Balanced body) : Balanced (oneDeeper body)
  | records {σ : Type} {record : UInt32 → σ → ReaderM σ}
      (hrecord : ∀ tag state, Balanced (record tag state)) (state : σ) :
      Balanced (readToLimit record state)
  | elements {α : Type} {body : ReaderM α} (hbody : Balanced body) (hadvances : Advances body) :
      Balanced (readElements body)
  | byTag {α : Type} (read : UInt32 → ReaderM α) (hread : ∀ tag, Balanced (read tag)) :
      Balanced fun reader => read reader.lastTag reader
  | byLevels {α : Type} (read : Nat → ReaderM α) (hread : ∀ levels, Balanced (read levels)) :
      Balanced fun reader => read (reader.config.recursionLimit - reader.depth) reader
  | setTag (tag : UInt32) : Balanced (modify fun reader => { reader with lastTag := tag })

theorem Balanced.map {read : ReaderM α} (hread : Balanced read) (change : α → β) :
    Balanced (read >>= fun value => Pure.pure (change value)) :=
  hread.bind fun value => .pure (change value)

/-! ## Nested messages -/

theorem balanced_readLength : Balanced readLength := Balanced.varint.map UInt64.toNat

/-- Reads a payload as a message where messages may nest `levels` deeper, and puts the last tag
back. -/
def readNested (body : ReaderM α) (length : Nat) : (levels : Nat) → ReaderM α
  | 0 => do throw (.recursionLimitExceeded (← get).config.recursionLimit)
  | _ + 1 => fun reader =>
      (within length (oneDeeper body) >>= fun message => do
        modify fun after => { after with lastTag := reader.lastTag }
        return message) reader

theorem readMessageOf_eq (body : ReaderM α) (length : Nat) :
    readMessageOf body length = fun reader =>
      readNested body length (reader.config.recursionLimit - reader.depth) reader := by
  funext reader
  rw [readMessageOf]
  split
  next hdeep =>
    rw [Nat.sub_eq_zero_of_le hdeep]
    rfl
  next hdeep =>
    obtain ⟨levels, hlevels⟩ := Nat.exists_eq_succ_of_ne_zero (Nat.sub_ne_zero_of_lt (not_le.mp hdeep))
    rw [hlevels]
    rfl

theorem balanced_readMessage {body : ReaderM α} (hbody : Balanced body) :
    Balanced (readMessage body) := by
  rw [readMessage_eq]
  refine balanced_readLength.bind fun length => ?_
  rw [readMessageOf_eq]
  refine .byLevels (readNested body length) fun levels => ?_
  cases levels with
  | zero => exact .tooDeep
  | succ levels =>
      refine .byTag (fun tag => within length (oneDeeper body) >>= fun message => do
        modify fun after => { after with lastTag := tag }
        return message) fun tag => ?_
      exact (Balanced.within length (.deeper hbody)).bind fun message =>
        (Balanced.setTag tag).map fun _ => message

/-! ## Reads around nested messages -/

/-- Reads put together from reads of the cursor and of nested messages of the types mentioned, in
whatever way the bodies of those messages are read. Every one of them tells where it ends: a run of
records or elements is bounded by a length. Their own errors are not about depth or missing fields.
-/
inductive Modular (mentioned : String → Prop) :
    {α : Type} → ((String → ReaderM Message) → ReaderM α) → Prop
  | pure {α : Type} (value : α) : Modular mentioned fun _ => (Pure.pure value : ReaderM α)
  | fail {α : Type} (error : DecodeError)
      (herror : ∀ limit, error ≠ .recursionLimitExceeded limit)
      (hpresent : ∀ field, error ≠ .missingRequiredField field) :
      Modular mentioned fun _ => (throw error : ReaderM α)
  | bind {α β : Type} {read : (String → ReaderM Message) → ReaderM α}
      {next : α → (String → ReaderM Message) → ReaderM β} (hread : Modular mentioned read)
      (hnext : ∀ value, Modular mentioned (next value)) :
      Modular mentioned fun body => read body >>= fun value => next value body
  | varint : Modular mentioned fun _ => readVarint64
  | exactly (count : Nat) : Modular mentioned fun _ => readExactly count
  | skip (count : Nat) : Modular mentioned fun _ => skipExactly count
  | message (name : String) (hname : mentioned name) :
      Modular mentioned fun body => readMessage (body name)
  | records {σ : Type} (length : Nat) {record : UInt32 → σ → (String → ReaderM Message) → ReaderM σ}
      (hrecord : ∀ tag state, Modular mentioned (record tag state)) (state : σ) :
      Modular mentioned fun body =>
        within length (readToLimit (fun tag state => record tag state body) state)
  | elements {α : Type} (length : Nat) {read : (String → ReaderM Message) → ReaderM α}
      (hread : Modular mentioned read) (hadvances : ∀ body, Advances (read body)) :
      Modular mentioned fun body => within length (readElements (read body))
  | byTag {α : Type} (read : UInt32 → (String → ReaderM Message) → ReaderM α)
      (hread : ∀ tag, Modular mentioned (read tag)) :
      Modular mentioned fun body reader => read reader.lastTag body reader

theorem Modular.map {mentioned : String → Prop} {read : (String → ReaderM Message) → ReaderM α}
    (hread : Modular mentioned read) (change : α → β) :
    Modular mentioned fun body => read body >>= fun value => Pure.pure (change value) :=
  hread.bind fun value => .pure (change value)

theorem Modular.mono {mentioned mentioned' : String → Prop}
    {read : (String → ReaderM Message) → ReaderM α} (hread : Modular mentioned read)
    (hmentioned : ∀ name, mentioned name → mentioned' name) : Modular mentioned' read := by
  induction hread with
  | pure value => exact .pure value
  | fail error herror hpresent => exact .fail error herror hpresent
  | bind _ _ ihread ihnext => exact ihread.bind ihnext
  | varint => exact .varint
  | exactly count => exact .exactly count
  | skip count => exact .skip count
  | message name hname => exact .message name (hmentioned name hname)
  | records length _ state ih => exact .records length ih state
  | elements length _ hadvances ih => exact .elements length ih hadvances
  | byTag read _ ih => exact .byTag read ih

/-- Reads around messages whose bodies take back the bounds they push do so as well. -/
theorem Modular.balanced {mentioned : String → Prop}
    {read : (String → ReaderM Message) → ReaderM α} (hread : Modular mentioned read)
    {body : String → ReaderM Message} (hbody : ∀ name, Balanced (body name)) :
    Balanced (read body) := by
  induction hread with
  | pure value => exact .pure value
  | fail error herror _ => exact .fail error herror
  | bind _ _ ihread ihnext => exact ihread.bind ihnext
  | varint => exact .varint
  | exactly count => exact .exactly count
  | skip count => exact .skip count
  | message name _ => exact balanced_readMessage (hbody name)
  | records length _ state ih => exact .within length (.records ih state)
  | elements length _ hadvances ih => exact .within length (.elements ih (hadvances body))
  | byTag read _ ih => exact .byTag (fun tag => read tag body) ih

/-- Reads in which no message is nested. -/
theorem Modular.plain {read : ReaderM α} (hread : Modular (fun _ => False) fun _ => read) :
    Balanced read :=
  @Modular.balanced _ _ _ hread (fun _ => Pure.pure (.mk [] .empty .empty)) fun _ => .pure _

/-! ## Words and payloads -/

variable {mentioned : String → Prop}

theorem modular_readLength : Modular mentioned fun _ => readLength := Modular.varint.map UInt64.toNat

theorem modular_readBytes : Modular mentioned fun _ => readBytes := modular_readLength.bind .exactly

theorem modular_readString : Modular mentioned fun _ => readString := by
  refine modular_readBytes.bind fun payload => ?_
  cases String.fromUTF8? ⟨payload.toArray⟩ with
  | none => exact .fail .invalidUtf8 nofun nofun
  | some text => exact .pure text

theorem modular_readScalar (type : ScalarType) : Modular mentioned fun _ => type.read := by
  have hword : Modular mentioned fun _ => readVarint32 := Modular.varint.map UInt64.toUInt32
  have hfixed32 : Modular mentioned fun _ => readFixed32 := (Modular.exactly 4).map _
  have hfixed64 : Modular mentioned fun _ => readFixed64 := (Modular.exactly 8).map _
  cases type with
  | bool | int64 | uint64 | sint64 => exact Modular.varint.map _
  | int32 | uint32 | sint32 => exact hword.map _
  | double | fixed64 | sfixed64 => exact hfixed64.map _
  | float | fixed32 | sfixed32 => exact hfixed32.map _
  | string => exact modular_readString.map _
  | bytes => exact modular_readBytes.map _

theorem split_error {tag : UInt32} {error : DecodeError} (hsplit : Tag.split tag = .error error) :
    (∀ limit, error ≠ .recursionLimitExceeded limit) ∧
      ∀ field, error ≠ .missingRequiredField field := by
  rw [Tag.split, WireType.ofValue] at hsplit
  split_ifs at hsplit <;> cases hsplit <;> exact ⟨nofun, nofun⟩

theorem modular_readUnknown (tag : UInt32) : Modular mentioned fun _ => readUnknown tag := by
  unfold readUnknown
  cases hsplit : Tag.split tag with
  | error error => exact .fail error (split_error hsplit).1 (split_error hsplit).2
  | ok key =>
      obtain ⟨number, wireType⟩ := key
      cases wireType with
      | varint => exact Modular.varint.map _
      | i64 => exact ((Modular.exactly 8).map _).map _
      | i32 => exact ((Modular.exactly 4).map _).map _
      | len => exact modular_readBytes.map _

theorem modular_skipField (tag : UInt32) : Modular mentioned fun _ => skipField tag := by
  unfold skipField
  cases hsplit : Tag.split tag with
  | error error => exact .fail error (split_error hsplit).1 (split_error hsplit).2
  | ok key =>
      obtain ⟨number, wireType⟩ := key
      cases wireType with
      | varint => exact Modular.varint.map _
      | i64 => exact .skip 8
      | i32 => exact .skip 4
      | len => exact modular_readLength.bind .skip

/-! ## Repeated fields -/

/-- Whether elements of a wire type are read from a packed run under a tag. -/
def announcesRun (element : WireType) (tag : UInt32) : Bool :=
  element != .len &&
    match Tag.split tag with
    | .ok key => key.wireType == .len
    | .error _ => false

/-- Refuses a packed run whose length elements of a fixed width cannot fill. -/
def checkRun (element : WireType) (length : Nat) : ReaderM Unit :=
  match element.fixedWidth? with
  | some width =>
      if length % width ≠ 0 then throw (.invalidPackedLength width length) else return ()
  | none => return ()

theorem modular_checkRun (element : WireType) (length : Nat) :
    Modular mentioned fun _ => checkRun element length := by
  unfold checkRun
  cases element.fixedWidth? with
  | none => exact .pure ()
  | some width =>
      dsimp only
      split
      · exact .fail _ nofun nofun
      · exact .pure ()

theorem enterPackedRun_eq (element : WireType) :
    enterPackedRun element = (do
      let length ← readLength
      checkRun element length
      pushLimit length) := by
  rw [enterPackedRun]
  refine congrArg (readLength >>= ·) (funext fun length => ?_)
  rw [checkRun]
  cases element.fixedWidth? with
  | none => rfl
  | some width => by_cases hfills : length % width ≠ 0 <;> simp [hfills]

theorem readRepeated_eq (element : WireType) (body : ReaderM α) :
    readRepeated element body = fun reader =>
      (if announcesRun element reader.lastTag then do
        let length ← readLength
        checkRun element length
        within length (readElements body)
      else return [← body] : ReaderM (List α)) reader := by
  funext reader
  have hannounces : (element != .len && reader.lastTagIsDelimited) =
      announcesRun element reader.lastTag := rfl
  by_cases hpacked : announcesRun element reader.lastTag = true
  · rw [readRepeated, readOccurrence, hannounces, if_pos hpacked, if_pos hpacked, enterPackedRun_eq]
    cases hlength : readLength reader with
    | error error after => rw [bind_error hlength, bind_error hlength]
    | ok length after =>
        rw [bind_ok hlength, bind_ok hlength]
        cases hcheck : checkRun element length after with
        | error error after => rw [bind_error hcheck, bind_error hcheck]
        | ok checked after =>
            rw [bind_ok hcheck, bind_ok hcheck, within]
            cases hpush : pushLimit length after with
            | error error after => rw [bind_error hpush]
            | ok pushed after =>
                rw [bind_ok hpush]
                cases hrun : readRun body (after.buffer.size - after.position) [] after with
                | mk elements failure last =>
                    cases failure with
                    | none =>
                        have helements : readElements body after = .ok elements last := by
                          rw [readElements, hrun, Occurrence.result]
                        rw [bind_ok helements]
                        simp only [hrun]
                        rfl
                    | some error =>
                        have helements : readElements body after = .error error last := by
                          rw [readElements, hrun, Occurrence.result]
                        rw [bind_error helements]
                        simp only [hrun]
  · rw [readRepeated, readOccurrence, hannounces, if_neg hpacked, if_neg hpacked]
    cases hbody : body reader with
    | ok value after => rw [bind_ok hbody]; rfl
    | error error after => rw [bind_error hbody]

theorem modular_readRepeated (element : WireType)
    {read : (String → ReaderM Message) → ReaderM α} (hread : Modular mentioned read)
    (hadvances : element ≠ .len → ∀ body, Advances (read body)) :
    Modular mentioned fun body => readRepeated element (read body) := by
  simp only [readRepeated_eq]
  refine .byTag (fun tag body => if announcesRun element tag then do
      let length ← readLength
      checkRun element length
      within length (readElements (read body))
    else return [← read body]) fun tag => ?_
  split
  next hpacked =>
    have helement : element ≠ .len := by
      rintro rfl
      cases hpacked
    exact modular_readLength.bind fun length => (modular_checkRun element length).bind fun _ =>
      .elements length hread (hadvances helement)
  next hsingle => exact hread.map fun value => [value]

/-! ## Values, records and messages -/

theorem Advances.map {read : ReaderM α} (hread : Advances read) (change : α → β) :
    Advances (read >>= fun value => Pure.pure (change value)) := by
  intro reader value after hboth
  obtain ⟨first, middle, hfirst, hmade⟩ := ok_of_bind hboth
  cases hmade
  exact hread reader first after hfirst

theorem advances_readVarint64 : Advances readVarint64 := by
  intro reader value after hread
  rw [readVarint64] at hread
  cases hdecode : Varint.decode (reader.ahead Varint.maxLength) with
  | error error =>
      rw [hdecode] at hread
      cases hread
  | ok found =>
      rw [hdecode] at hread
      cases hread
      exact Nat.lt_add_of_pos_right (Varint.decode_count hdecode).1

theorem advances_readExactly {count : Nat} (hcount : 0 < count) : Advances (readExactly count) := by
  intro reader value after hread
  rw [readExactly] at hread
  split at hread
  · cases hread
  · cases hread
    exact Nat.lt_add_of_pos_right hcount

theorem advances_readScalar {type : ScalarType} (htype : type.wireType ≠ .len) :
    Advances type.read := by
  have hword : Advances readVarint32 := advances_readVarint64.map UInt64.toUInt32
  have hfixed32 : Advances readFixed32 := (advances_readExactly (by decide)).map _
  have hfixed64 : Advances readFixed64 := (advances_readExactly (by decide)).map _
  cases type with
  | bool | int64 | uint64 | sint64 => exact advances_readVarint64.map _
  | int32 | uint32 | sint32 => exact hword.map _
  | double | fixed64 | sfixed64 => exact hfixed64.map _
  | float | fixed32 | sfixed32 => exact hfixed32.map _
  | string | bytes => exact absurd rfl htype

theorem advances_readValue (body : String → ReaderM Message) {type : ValueType}
    (htype : type.wireType ≠ .len) : Advances (type.read body) := by
  induction type with
  | scalar type => exact (advances_readScalar htype).map _
  | enumeration schema => exact (advances_readVarint64.map UInt64.toUInt32).map _
  | message name => exact absurd rfl htype
  | option inner ih => exact (ih htype).map _
  | converted name wire ih => exact (ih htype).map _

theorem modular_readValue (type : ValueType) : Modular type.Mentions fun body => type.read body := by
  induction type with
  | scalar type => exact (modular_readScalar type).map _
  | enumeration schema => exact (Modular.varint.map UInt64.toUInt32).map _
  | message name => exact (Modular.message name rfl).map _
  | option inner ih => exact ih.map _
  | converted name wire ih => exact ih.map _

theorem modular_readMapRecord (key : ScalarType) (value : ValueType) (tag : UInt32)
    (found : Option Scalar × Option Value) :
    Modular value.Mentions fun body => readMapRecord body key value tag found := by
  unfold readMapRecord
  split
  · exact (modular_readScalar key).map _
  · split
    · exact (modular_readValue value).map _
    · exact (modular_skipField tag).map _

theorem readMapEntry_eq (body : String → ReaderM Message) (key : ScalarType) (value : ValueType)
    (default : Value) :
    readMapEntry body key value default = (readLength >>= fun length =>
      within length (readToLimit (readMapRecord body key value) (none, none))) >>= fun found =>
        Pure.pure (found.1.getD key.zero, found.2.getD default) := by
  simp only [readMapEntry, within, bind_assoc, pure_bind]

theorem modular_readMapEntry (key : ScalarType) (value : ValueType) (default : Value) :
    Modular value.Mentions fun body => readMapEntry body key value default := by
  simp only [readMapEntry_eq]
  exact (modular_readLength.bind fun length =>
    .records length (modular_readMapRecord key value) _).map _

theorem modular_readOneof (schema : OneofSchema) (tag : UInt32) :
    Modular schema.Mentions fun body => schema.read body tag := by
  unfold OneofSchema.read
  cases schema.memberFor? tag with
  | none => exact .pure none
  | some place =>
      dsimp only
      cases hmember : schema.members[place]? with
      | none => exact .pure none
      | some member =>
          have hread := (modular_readValue member.type).mono fun name hname =>
            (⟨member, List.mem_of_getElem? hmember, hname⟩ : schema.Mentions name)
          exact hread.map _

theorem modular_readEntry (catalog : Catalog) (tag : UInt32) (entry : Entry)
    (slot : Option Content) :
    Modular entry.Mentions fun body => entry.readRecord catalog body tag slot := by
  cases entry with
  | singular name number type optional nonNull => exact (modular_readValue type).map _
  | repeated name number element packed =>
      exact (modular_readRepeated element.wireType (modular_readValue element) fun helement body =>
        advances_readValue body helement).map _
  | map name number key value order => exact (modular_readMapEntry key value _).map _
  | oneof name schema required =>
      refine (modular_readOneof schema tag).bind fun choice => ?_
      cases choice with
      | none => exact .pure slot
      | some choice => exact .pure _

theorem modular_readRecord (catalog : Catalog) (schema : MessageSchema) (tag : UInt32)
    (gathered : Gathered) :
    Modular schema.Mentions fun body => schema.readRecord catalog body tag gathered := by
  unfold MessageSchema.readRecord
  cases schema.entryFor? tag with
  | none =>
      dsimp only
      split
      · exact (modular_readUnknown tag).map _
      · exact (modular_skipField tag).map _
  | some place =>
      dsimp only
      cases hentry : schema.entries[place]? with
      | none => exact .pure gathered
      | some entry =>
          have hread := (modular_readEntry catalog tag entry (gathered.slots[place]?.getD none)).mono
            fun name hname =>
              (⟨entry, List.mem_of_getElem? hentry, hname⟩ : schema.Mentions name)
          exact hread.map _

theorem finish_error {catalog : Catalog} {entry : Entry} {slot : Option Content}
    {error : DecodeError} (hfinish : entry.finish catalog slot = .error error) :
    entry.isRequired = true ∧ error = .missingRequiredField entry.name := by
  cases slot with
  | some content => cases entry <;> cases hfinish
  | none =>
      cases entry with
      | repeated | map => cases hfinish
      | singular name number type optional nonNull =>
          cases nonNull <;> cases hfinish
          exact ⟨rfl, rfl⟩
      | oneof name schema required =>
          cases required <;> cases hfinish
          exact ⟨rfl, rfl⟩

/-- Once all records are read, nothing is an error but an entry that is required and missing. -/
theorem finishEntries_error {catalog : Catalog} {entries : List Entry}
    {slots : List (Option Content)} {error : DecodeError}
    (hfinish : finishEntries catalog entries slots = .error error) :
    ∃ entry ∈ entries.filter (·.isRequired), error = .missingRequiredField entry.name := by
  induction entries generalizing slots with
  | nil => cases hfinish
  | cons entry entries ih =>
      rw [finishEntries] at hfinish
      cases hfirst : entry.finish catalog (slots.head?.getD none) with
      | error first =>
          rw [hfirst] at hfinish
          cases hfinish
          obtain ⟨hrequired, herror⟩ := finish_error hfirst
          exact ⟨entry, List.mem_filter.mpr ⟨List.mem_cons_self, hrequired⟩, herror⟩
      | ok content =>
          rw [hfirst] at hfinish
          cases hrest : finishEntries catalog entries slots.tail with
          | ok contents =>
              rw [hrest] at hfinish
              cases hfinish
          | error rest =>
              rw [hrest] at hfinish
              cases hfinish
              obtain ⟨missing, hmissing, herror⟩ := ih hrest
              have hlater := (List.sublist_cons_self entry entries).filter (·.isRequired)
              exact ⟨missing, hlater.subset hmissing, herror⟩

theorem balanced_finish (catalog : Catalog) (entries : List Entry) (gathered : Gathered) :
    Balanced (match finishEntries catalog entries gathered.slots with
      | .ok contents => return .mk contents gathered.unknown .empty
      | .error error => throw error : ReaderM Message) := by
  cases hfinish : finishEntries catalog entries gathered.slots with
  | ok contents => exact .pure _
  | error error =>
      obtain ⟨entry, _, rfl⟩ := finishEntries_error hfinish
      exact .fail _ nofun

theorem balanced_readBodyOf (catalog : Catalog) (schema : MessageSchema)
    {body : String → ReaderM Message} (hbody : ∀ name, Balanced (body name)) :
    Balanced (schema.readBody catalog body) :=
  (Balanced.records (fun tag gathered =>
    (modular_readRecord catalog schema tag gathered).balanced hbody) _).bind
      (balanced_finish catalog schema.entries)

theorem balanced_readBodyWithin (catalog : Catalog) (levels : Nat) (name : String) :
    Balanced (catalog.readBodyWithin levels name) := by
  induction levels generalizing name with
  | zero => exact balanced_readBodyOf catalog _ fun _ => .tooDeep
  | succ levels ih => exact balanced_readBodyOf catalog _ ih

/-- Whatever the catalog says, the body of a message type takes back the bounds it pushes. -/
theorem balanced_catalogBody (catalog : Catalog) (name : String) : Balanced (catalog.readBody name) :=
  .byLevels (catalog.readBodyWithin · name) fun levels => balanced_readBodyWithin catalog levels name

end Reader

end ProtoWire
