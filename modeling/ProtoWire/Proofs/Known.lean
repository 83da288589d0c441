import ProtoWire.Proofs.Altered
import ProtoWire.Proofs.Balanced
import ProtoWire.Proofs.Lists

/-! # Messages without what is not declared

A message type may keep undeclared records or pass over them. What it declares is read alike in both
cases, from the same bytes and with the same errors, however deep the messages are nested in one
another.
-/

namespace ProtoWire

/-! ## Declared contents -/

mutual

/-- A value without the undeclared records inside. -/
def Value.known : Value → Value
  | .scalar scalar => .scalar scalar
  | .enumeration value => .enumeration value
  | .message message => .message message.known
  | .absent => .absent
  | .present value => .present value.known
  | .reference held wire => .reference held wire.known

/-- A message without undeclared records, its own and those of messages inside. -/
def Message.known : Message → Message
  | .mk contents _ cache => .mk (knownContents contents) .empty cache

/-- Contents without the undeclared records inside. -/
def knownContents : List Content → List Content
  | [] => []
  | content :: rest => content.known :: knownContents rest

/-- A content without the undeclared records inside. -/
def Content.known : Content → Content
  | .singular value => .singular value.known
  | .repeated values => .repeated (knownValues values)
  | .mapping entries => .mapping (knownEntries entries)
  | .unset => .unset
  | .chosen member value => .chosen member value.known

/-- Values without the undeclared records inside. -/
def knownValues : List Value → List Value
  | [] => []
  | value :: rest => value.known :: knownValues rest

/-- The entries of a map without the undeclared records inside. -/
def knownEntries : List (Scalar × Value) → List (Scalar × Value)
  | [] => []
  | (key, value) :: rest => (key, value.known) :: knownEntries rest

end

/-- A value with the messages that it holds itself changed. -/
def Value.changed (change : Message → Message) : Value → Value
  | .message held => .message (change held)
  | .present value => .present (value.changed change)
  | .reference held wire => .reference held (wire.changed change)
  | value => value

/-- A content with the messages that it holds itself changed. -/
def Content.changed (change : Message → Message) : Content → Content
  | .singular value => .singular (value.changed change)
  | .repeated values => .repeated (values.map (·.changed change))
  | .mapping entries => .mapping (entries.map fun entry => (entry.1, entry.2.changed change))
  | .unset => .unset
  | .chosen member value => .chosen member (value.changed change)

/-- A message without its own undeclared records, and with the messages that it holds changed. -/
def Message.declared (change : Message → Message) : Message → Message
  | .mk contents _ cache => .mk (contents.map (·.changed change)) .empty cache

theorem Value.known_eq : ∀ value : Value, value.known = value.changed Message.known
  | .scalar _ | .enumeration _ | .message _ | .absent => rfl
  | .present value => congrArg Value.present value.known_eq
  | .reference held wire => congrArg (Value.reference held) wire.known_eq

theorem knownValues_eq (values : List Value) :
    knownValues values = values.map (·.changed Message.known) := by
  induction values with
  | nil => rfl
  | cons value rest ih => rw [knownValues, ih, Value.known_eq, List.map_cons]

theorem knownEntries_eq (entries : List (Scalar × Value)) :
    knownEntries entries = entries.map fun entry => (entry.1, entry.2.changed Message.known) := by
  induction entries with
  | nil => rfl
  | cons entry rest ih =>
      obtain ⟨key, value⟩ := entry
      rw [knownEntries, ih, Value.known_eq, List.map_cons]

theorem Content.known_eq (content : Content) : content.known = content.changed Message.known := by
  cases content with
  | singular value => rw [known, changed, Value.known_eq]
  | repeated values => rw [known, changed, knownValues_eq]
  | mapping entries => rw [known, changed, knownEntries_eq]
  | unset => rfl
  | chosen member value => rw [known, changed, Value.known_eq]

theorem knownContents_eq (contents : List Content) :
    knownContents contents = contents.map (·.changed Message.known) := by
  induction contents with
  | nil => rfl
  | cons content rest ih => rw [knownContents, ih, Content.known_eq, List.map_cons]

theorem Message.known_eq (message : Message) : message.known = message.declared Message.known := by
  obtain ⟨contents, unknown, cache⟩ := message
  rw [known, declared, knownContents_eq]

theorem Value.changed_id : ∀ value : Value, value.changed id = value
  | .scalar _ | .enumeration _ | .message _ | .absent => rfl
  | .present value => congrArg Value.present value.changed_id
  | .reference held wire => congrArg (Value.reference held) wire.changed_id

theorem Content.changed_id (content : Content) : content.changed id = content := by
  cases content with
  | singular | chosen => simp only [changed, Value.changed_id]
  | repeated | mapping => simp only [changed, Value.changed_id, List.map_id']
  | unset => rfl

theorem insertEntry_changed (change : Message → Message) (key : Scalar) (value : Value)
    (entries : List (Scalar × Value)) :
    (insertEntry key value entries).map (fun entry => (entry.1, entry.2.changed change)) =
      insertEntry key (value.changed change)
        (entries.map fun entry => (entry.1, entry.2.changed change)) := by
  induction entries with
  | nil => rfl
  | cons entry rest ih =>
      rw [insertEntry, List.map_cons, insertEntry]
      split
      · rfl
      · split
        · rfl
        · rw [List.map_cons, ih]

/-! ## Reads whose results are changed -/

namespace Reader

variable {α β σ τ : Type}

theorem map_apply (change : α → β) (read : ReaderM α) (reader : Reader) :
    (change <$> read) reader =
      match read reader with
      | .ok value after => .ok (change value) after
      | .error error after => .error error after := by
  change EStateM.map change read reader = _
  rw [EStateM.map]
  cases read reader <;> rfl

theorem oneDeeper_map (change : α → β) (body : ReaderM α) :
    oneDeeper (change <$> body) = change <$> oneDeeper body := by
  funext reader
  rw [map_apply, oneDeeper, oneDeeper, map_apply]
  cases body { reader with depth := reader.depth + 1 } <;> rfl

theorem within_map (length : Nat) (change : α → β) (body : ReaderM α) :
    within length (change <$> body) = change <$> within length body := by
  simp only [within, map_eq_pure_bind, bind_assoc, pure_bind]

theorem readMessageOf_map (change : α → β) (body : ReaderM α) (length : Nat) :
    readMessageOf (change <$> body) length = change <$> readMessageOf body length := by
  funext reader
  rw [map_apply, readMessageOf, readMessageOf, oneDeeper_map, within_map]
  split
  · rfl
  · rw [← map_apply]
    simp only [bind_map_left, map_bind, map_pure]

theorem readMessage_map (change : α → β) (body : ReaderM α) :
    readMessage (change <$> body) = change <$> readMessage body := by
  rw [readMessage_eq, readMessage_eq, map_bind]
  exact congrArg (readLength >>= ·) (funext (readMessageOf_map change body))

/-- An occurrence with its elements changed. -/
def Occurrence.map (change : α → β) (occurrence : Occurrence α) : Occurrence β :=
  ⟨occurrence.elements.map change, occurrence.failure, occurrence.reader⟩

theorem readRun_map (change : α → β) (element : ReaderM α) (fuel : Nat) (read : List α)
    (reader : Reader) :
    readRun (change <$> element) fuel (read.map change) reader =
      (readRun element fuel read reader).map change := by
  induction fuel generalizing read reader with
  | zero => simp only [readRun, Occurrence.map, List.map_reverse]
  | succ fuel ih =>
      rw [readRun, readRun]
      split
      · rw [map_apply]
        cases element reader with
        | ok value after => exact ih (value :: read) after
        | error error after => simp only [Occurrence.map, List.map_reverse]
      · simp only [Occurrence.map, List.map_reverse]

theorem readElements_map (change : α → β) (body : ReaderM α) :
    readElements (change <$> body) = List.map change <$> readElements body := by
  funext reader
  have hrun := readRun_map change body (reader.buffer.size - reader.position) [] reader
  rw [List.map_nil] at hrun
  rw [map_apply, readElements, readElements, hrun]
  obtain ⟨elements, failure, after⟩ :=
    readRun body (reader.buffer.size - reader.position) [] reader
  cases failure <;> rfl

theorem readRepeated_map (element : WireType) (change : α → β) (body : ReaderM α) :
    readRepeated element (change <$> body) = List.map change <$> readRepeated element body := by
  funext reader
  rw [map_apply, readRepeated_eq, readRepeated_eq, readElements_map]
  dsimp only
  split
  · rw [← map_apply]
    simp only [within_map, map_bind]
  · rw [← map_apply]
    simp only [bind_map_left, map_bind, map_pure, List.map_cons, List.map_nil]

theorem readRecords_map {record : UInt32 → σ → ReaderM σ} {record' : UInt32 → τ → ReaderM τ}
    {change : σ → τ} (hrecord : ∀ tag state, record' tag (change state) = change <$> record tag state)
    (fuel : Nat) (state : σ) :
    readRecords record' fuel (change state) = change <$> readRecords record fuel state := by
  induction fuel generalizing state with
  | zero => simp only [readRecords, map_pure]
  | succ fuel ih =>
      simp only [readRecords, map_bind]
      refine congrArg (readTag >>= ·) (funext fun tag => ?_)
      split
      · exact (map_pure change state).symm
      · simp only [hrecord, bind_map_left, map_bind, ih]

theorem readToLimit_map {record : UInt32 → σ → ReaderM σ} {record' : UInt32 → τ → ReaderM τ}
    {change : σ → τ} (hrecord : ∀ tag state, record' tag (change state) = change <$> record tag state)
    (state : σ) : readToLimit record' (change state) = change <$> readToLimit record state := by
  simp only [readToLimit, readRecords_map hrecord, map_bind]

/-! ## Captured or passed over -/

theorem skipExactly_eq (count : Nat) :
    skipExactly count = (fun _ => ()) <$> readExactly count := by
  funext reader
  rw [map_apply, skipExactly, readExactly]
  split <;> rfl

/-- A record is passed over as it is captured, with the same error or the same reader afterwards. -/
theorem skipField_eq (tag : UInt32) : skipField tag = (fun _ => ()) <$> readUnknown tag := by
  rw [skipField, readUnknown]
  cases Tag.split tag with
  | error error => rfl
  | ok key =>
      obtain ⟨number, wireType⟩ := key
      cases wireType with
      | varint => simp only [map_bind, map_pure]
      | i64 => simp only [readFixed64, skipExactly_eq, map_eq_pure_bind, bind_assoc, pure_bind]
      | len => simp only [readBytes, skipExactly_eq, map_eq_pure_bind, bind_assoc, pure_bind]
      | i32 => simp only [readFixed32, skipExactly_eq, map_eq_pure_bind, bind_assoc, pure_bind]

end Reader

/-! ## Types that keep nothing undeclared -/

/-- The message type without the field that keeps undeclared records. -/
def MessageSchema.withoutUnknown (schema : MessageSchema) : MessageSchema :=
  { schema with unknownField := none }

namespace Catalog

/-- The message types without the fields that keep undeclared records. -/
def withoutUnknown (catalog : Catalog) : Catalog := catalog.alter MessageSchema.withoutUnknown

variable {catalog : Catalog}

theorem schema_withoutUnknown (catalog : Catalog) (name : String) :
    catalog.withoutUnknown.schema name = (catalog.schema name).withoutUnknown :=
  schema_alter (fun _ => rfl) catalog name

theorem default_withoutUnknown (type : ValueType) :
    catalog.withoutUnknown.default? type = catalog.default? type :=
  @default_alter MessageSchema.withoutUnknown (fun _ => rfl) (fun _ _ => rfl) catalog type

section Defaults

variable {change : Message → Message} {message : String → Option Message}
  (hmessage : ∀ name held, message name = some held → change held = held)
include hmessage

theorem changed_of_default {type : ValueType} {value : Value}
    (hvalue : type.default? message = some value) : value.changed change = value := by
  induction type generalizing value with
  | scalar | enumeration | option => cases hvalue; rfl
  | message name =>
      obtain ⟨held, hheld, rfl⟩ := Option.map_eq_some_iff.mp hvalue
      rw [Value.changed, hmessage name held hheld]
  | converted name wire ih =>
      obtain ⟨inner, hinner, rfl⟩ := Option.map_eq_some_iff.mp hvalue
      rw [Value.changed, ih hinner]

theorem changed_of_entryDefault {entry : Entry} {content : Content}
    (hcontent : entry.default? message = some content) : content.changed change = content := by
  cases entry with
  | singular name number type optional nonNull =>
      obtain ⟨value, hvalue, rfl⟩ := Option.map_eq_some_iff.mp hcontent
      rw [Content.changed, changed_of_default hmessage hvalue]
  | repeated | map => cases hcontent; rfl
  | oneof name schema required =>
      cases required <;> cases hcontent
      rfl

end Defaults

/-- A default holds no undeclared records. -/
theorem known_defaultMessageWithin {levels : Nat} {name : String} {message : Message}
    (hmessage : catalog.defaultMessageWithin? levels name = some message) :
    message.known = message := by
  induction levels generalizing name message with
  | zero => cases hmessage
  | succ levels ih =>
      rw [defaultMessageWithin?, Option.bind_eq_bind, Option.bind_eq_some_iff] at hmessage
      obtain ⟨contents, hcontents, hmade⟩ := hmessage
      cases hmade
      have hheld : ∀ content ∈ contents, content.changed Message.known = content :=
        forall_of_mapM (fun entry _ content hcontent =>
          changed_of_entryDefault (fun _ _ hnested => ih hnested) hcontent) hcontents
      rw [Message.known_eq, Message.declared, List.map_congr_left hheld, List.map_id']

/-- Defaults stay as they are when messages are changed. -/
def KeepsDefaults (catalog : Catalog) (change : Message → Message) : Prop :=
  ∀ type, ((catalog.default? type).getD .absent).changed change = (catalog.default? type).getD .absent

theorem keepsDefaults_known (catalog : Catalog) : catalog.KeepsDefaults Message.known := by
  intro type
  cases hvalue : catalog.default? type with
  | none => rfl
  | some value =>
      exact changed_of_default (fun _ _ hheld => known_defaultMessageWithin hheld) hvalue

theorem keepsDefaults_id (catalog : Catalog) : catalog.KeepsDefaults id :=
  fun _ => Value.changed_id _

end Catalog

/-! ## Reading what is declared -/

section Reading

open Reader

variable {catalog : Catalog} {body : String → ReaderM Message} {change : Message → Message}

/-- The bodies of messages, with what is read changed. -/
def changedBody (change : Message → Message) (body : String → ReaderM Message) (name : String) :
    ReaderM Message :=
  change <$> body name

theorem ValueType.read_changed (type : ValueType) :
    type.read (changedBody change body) = Value.changed change <$> type.read body := by
  induction type with
  | scalar type => simp only [read, map_bind, map_pure, Value.changed]
  | enumeration schema => simp only [read, map_bind, map_pure, Value.changed]
  | message name =>
      simp only [read, changedBody, readMessage_map, bind_map_left, map_bind, map_pure,
        Value.changed]
  | option inner ih => simp only [read, ih, bind_map_left, map_bind, map_pure, Value.changed]
  | converted name wire ih => simp only [read, ih, bind_map_left, map_bind, map_pure, Value.changed]

/-- What was found of a map entry, with the messages in its value changed. -/
def changedFound (change : Message → Message) (found : Option Scalar × Option Value) :
    Option Scalar × Option Value :=
  (found.1, found.2.map (Value.changed change))

theorem readMapRecord_changed (key : ScalarType) (value : ValueType) (tag : UInt32)
    (found : Option Scalar × Option Value) :
    readMapRecord (changedBody change body) key value tag (changedFound change found) =
      changedFound change <$> readMapRecord body key value tag found := by
  rw [readMapRecord, readMapRecord]
  split
  · simp only [map_bind, map_pure, changedFound]
  · split
    · simp only [ValueType.read_changed, bind_map_left, map_bind, map_pure, changedFound,
        Option.map_some]
    · simp only [map_bind, map_pure]

theorem readMapEntry_changed (key : ScalarType) (value : ValueType) {default : Value}
    (hdefault : default.changed change = default) :
    readMapEntry (changedBody change body) key value default =
      (fun entry => (entry.1, entry.2.changed change)) <$>
        readMapEntry body key value default := by
  have hrecords : readToLimit (readMapRecord (changedBody change body) key value) (none, none) =
      changedFound change <$> readToLimit (readMapRecord body key value) (none, none) :=
    readToLimit_map (readMapRecord_changed key value) (none, none)
  have hvalue : ∀ found : Option Scalar × Option Value,
      (changedFound change found).2.getD default = (found.2.getD default).changed change := by
    intro found
    have hmap := Option.getD_map (Value.changed change) default found.2
    rwa [hdefault] at hmap
  rw [readMapEntry_eq, readMapEntry_eq, hrecords]
  simp only [within_map, bind_assoc, bind_map_left, map_bind, map_pure, hvalue]
  rfl

theorem OneofSchema.read_changed (schema : OneofSchema) (tag : UInt32) :
    schema.read (changedBody change body) tag =
      Option.map (fun choice => (choice.1, choice.2.changed change)) <$> schema.read body tag := by
  rw [read, read]
  cases schema.memberFor? tag with
  | none => rfl
  | some place =>
      dsimp only
      cases schema.members[place]? with
      | none => rfl
      | some member =>
          simp only [ValueType.read_changed, bind_map_left, map_bind, map_pure, Option.map_some]

theorem Content.elements_changed (slot : Option Content) :
    elements (slot.map (changed change)) = (elements slot).map (Value.changed change) := by
  cases slot with
  | none => rfl
  | some content => cases content <;> rfl

theorem Content.mapEntries_changed (slot : Option Content) :
    mapEntries (slot.map (changed change)) =
      (mapEntries slot).map fun entry => (entry.1, entry.2.changed change) := by
  cases slot with
  | none => rfl
  | some content => cases content <;> rfl

theorem Entry.readRecord_changed (hdefaults : catalog.KeepsDefaults change) (tag : UInt32)
    (entry : Entry) (slot : Option Content) :
    entry.readRecord catalog (changedBody change body) tag (slot.map (Content.changed change)) =
      Option.map (Content.changed change) <$> entry.readRecord catalog body tag slot := by
  cases entry with
  | singular name number type optional nonNull =>
      simp only [readRecord, ValueType.read_changed, bind_map_left, map_bind, map_pure,
        Option.map_some, Content.changed]
  | repeated name number element packed =>
      have hvalues : readRepeated element.wireType (element.read (changedBody change body)) =
          List.map (Value.changed change) <$>
            readRepeated element.wireType (element.read body) := by
        rw [ValueType.read_changed, readRepeated_map]
      simp only [readRecord, hvalues, bind_map_left, map_bind, map_pure, Option.map_some,
        Content.changed, Content.elements_changed, List.map_append]
  | map name number key value order =>
      simp only [readRecord, readMapEntry_changed key value (hdefaults value), bind_map_left,
        map_bind, map_pure, Option.map_some, Content.changed, Content.mapEntries_changed,
        insertEntry_changed]
  | oneof name schema required =>
      simp only [readRecord, OneofSchema.read_changed, bind_map_left, map_bind]
      refine congrArg (schema.read body tag >>= ·) (funext fun choice => ?_)
      cases choice <;> rfl

/-- What was gathered of a message, without its undeclared records. -/
def Gathered.declared (change : Message → Message) (gathered : Gathered) : Gathered :=
  ⟨gathered.slots.map (Option.map (Content.changed change)), .empty⟩

theorem MessageSchema.readRecord_declared (hdefaults : catalog.KeepsDefaults change)
    (schema : MessageSchema) (tag : UInt32) (gathered : Gathered) :
    schema.withoutUnknown.readRecord catalog.withoutUnknown (changedBody change body) tag
        (gathered.declared change) =
      Gathered.declared change <$> schema.readRecord catalog body tag gathered := by
  have hentryFor : schema.withoutUnknown.entryFor? tag = schema.entryFor? tag := rfl
  rw [readRecord, readRecord, hentryFor]
  cases schema.entryFor? tag with
  | some place =>
      dsimp only [withoutUnknown]
      cases schema.entries[place]? with
      | none => rfl
      | some entry =>
          have hslot : (gathered.declared change).slots[place]?.getD none =
              (gathered.slots[place]?.getD none).map (Content.changed change) := by
            rw [Gathered.declared, List.getElem?_map]
            cases gathered.slots[place]? <;> rfl
          simp only [hslot, Entry.readRecord_of_defaults catalog.default_withoutUnknown,
            Entry.readRecord_changed hdefaults, bind_map_left, map_bind, map_pure]
          simp only [Gathered.declared, List.map_set]
  | none =>
      have hkeeps : schema.withoutUnknown.keepsUnknown = false := rfl
      dsimp only
      rw [hkeeps, if_neg Bool.false_ne_true]
      -- Passing over the record is all that is left of capturing it.
      cases schema.keepsUnknown with
      | false => simp only [Bool.false_eq_true, if_false, map_bind, map_pure]
      | true =>
          simp only [if_true, skipField_eq, bind_map_left, map_bind, map_pure]
          rfl

theorem Entry.finish_changed (hdefaults : catalog.KeepsDefaults change) (entry : Entry)
    (slot : Option Content) :
    entry.finish catalog (slot.map (Content.changed change)) =
      (entry.finish catalog slot).map (Content.changed change) := by
  cases slot with
  | some content => cases entry <;> rfl
  | none =>
      cases entry with
      | singular name number type optional nonNull =>
          cases nonNull with
          | true => rfl
          | false =>
              simp only [finish, Option.map_none, Bool.false_eq_true, if_false, Except.map,
                Content.changed, hdefaults type]
      | repeated | map => rfl
      | oneof name schema required => cases required <;> rfl

theorem finishEntries_changed (hdefaults : catalog.KeepsDefaults change) (entries : List Entry)
    (slots : List (Option Content)) :
    finishEntries catalog entries (slots.map (Option.map (Content.changed change))) =
      (finishEntries catalog entries slots).map (List.map (Content.changed change)) := by
  induction entries generalizing slots with
  | nil => rfl
  | cons entry entries ih =>
      have hhead : (slots.map (Option.map (Content.changed change))).head?.getD none =
          (slots.head?.getD none).map (Content.changed change) := by
        cases slots <;> rfl
      rw [finishEntries, finishEntries, hhead, Entry.finish_changed hdefaults, ← List.map_tail, ih]
      cases entry.finish catalog (slots.head?.getD none) with
      | error error => rfl
      | ok content => cases finishEntries catalog entries slots.tail <;> rfl

/-- A body is read as before but for its undeclared records, with the messages inside changed. -/
theorem MessageSchema.readBody_declared (hdefaults : catalog.KeepsDefaults change)
    (schema : MessageSchema) :
    schema.withoutUnknown.readBody catalog.withoutUnknown (changedBody change body) =
      Message.declared change <$> schema.readBody catalog body := by
  have hentries : schema.withoutUnknown.entries = schema.entries := rfl
  have hstart : Gathered.declared change ⟨schema.entries.map fun _ => none, .empty⟩ =
      ⟨schema.entries.map fun _ => none, .empty⟩ := by
    rw [Gathered.declared, List.map_map]
    rfl
  rw [readBody, readBody, hentries, ← hstart, readToLimit_map (readRecord_declared hdefaults schema),
    hstart]
  simp only [bind_map_left, map_bind]
  refine congrArg (readToLimit _ _ >>= ·) (funext fun gathered => ?_)
  rw [finishEntries_of_defaults catalog.default_withoutUnknown, Gathered.declared,
    finishEntries_changed hdefaults]
  cases finishEntries catalog schema.entries gathered.slots with
  | error error => rfl
  | ok contents => simp only [Except.map, map_pure, Message.declared]

/-- Of two types with the same entries that both keep undeclared records or both do not, the same
is read. -/
theorem MessageSchema.readBody_of_entries {schema other : MessageSchema}
    (hentries : schema.entries = other.entries) (hkeeps : schema.keepsUnknown = other.keepsUnknown) :
    schema.readBody catalog body = other.readBody catalog body := by
  have hrecord : schema.readRecord catalog body = other.readRecord catalog body := by
    funext tag gathered
    simp only [readRecord, entryFor?, hentries, hkeeps]
  rw [readBody, readBody, hrecord, hentries]

end Reading

namespace Catalog

variable {catalog : Catalog}

/-- The bodies of messages inside are read in one way at every depth, whatever message they are in. -/
theorem exists_nested (catalog : Catalog) (levels : Nat) : ∃ body, ∀ name,
    catalog.readBodyWithin levels name = (catalog.schema name).readBody catalog body := by
  cases levels with
  | zero => exact ⟨_, fun _ => rfl⟩
  | succ levels => exact ⟨catalog.readBodyWithin levels, fun _ => rfl⟩

/-! ### Types with and without undeclared records -/

theorem readBodyWithin_known (levels : Nat) (name : String) :
    catalog.withoutUnknown.readBodyWithin levels name =
      Message.known <$> catalog.readBodyWithin levels name := by
  have hknown : Message.declared Message.known = Message.known :=
    funext fun message => message.known_eq.symm
  induction levels generalizing name with
  | zero =>
      have hread := @MessageSchema.readBody_declared catalog
        (fun _ => do throw (.recursionLimitExceeded (← get).config.recursionLimit)) _
        (keepsDefaults_known catalog) (catalog.schema name)
      rw [readBodyWithin, readBodyWithin, schema_withoutUnknown, ← hknown, ← hread]
      rfl
  | succ levels ih =>
      have hread := @MessageSchema.readBody_declared catalog (catalog.readBodyWithin levels) _
        (keepsDefaults_known catalog) (catalog.schema name)
      rw [readBodyWithin, readBodyWithin, schema_withoutUnknown, funext ih, ← hknown, ← hread,
        hknown]
      rfl

/-- Where no type keeps undeclared records, the same bytes are accepted with the same declared
contents, and others are refused with the same errors. -/
theorem decode_known (name : String) (bytes : Bytes) (config : ReaderConfig) :
    catalog.withoutUnknown.decode name bytes config =
      (catalog.decode name bytes config).map Message.known := by
  have hread : catalog.withoutUnknown.readBody name = Message.known <$> catalog.readBody name := by
    simp only [readBody, readBodyWithin_known, map_bind]
  rw [decode, decodeWith, hread, Reader.map_apply, decode, decodeWith]
  cases catalog.readBody name (.ofBytes bytes config) <;> rfl

/-! ### Types with the same entries -/

section Entries

variable {name other : String} (hentries : (catalog.schema name).entries = (catalog.schema other).entries)
include hentries

theorem decode_of_entries
    (hkeeps : (catalog.schema name).keepsUnknown = (catalog.schema other).keepsUnknown)
    (bytes : Bytes) (config : ReaderConfig) :
    catalog.decode name bytes config = catalog.decode other bytes config := by
  have hbody : ∀ levels, catalog.readBodyWithin levels name = catalog.readBodyWithin levels other := by
    intro levels
    obtain ⟨body, hbody⟩ := catalog.exists_nested levels
    rw [hbody, hbody, MessageSchema.readBody_of_entries hentries hkeeps]
  simp only [decode, decodeWith, readBody, hbody]

/-- Of two types with the same entries, of which one may keep undeclared records, both accept the
same bytes with the same contents, undeclared records inside included. -/
theorem decode_contents (bytes : Bytes) (config : ReaderConfig) :
    (catalog.decode name bytes config).map Message.contents =
      (catalog.decode other bytes config).map Message.contents := by
  have hwithin : ∀ levels, Message.declared id <$> catalog.readBodyWithin levels name =
      Message.declared id <$> catalog.readBodyWithin levels other := by
    intro levels
    obtain ⟨body, hbody⟩ := catalog.exists_nested levels
    have hread := @MessageSchema.readBody_declared catalog body id catalog.keepsDefaults_id
    rw [hbody, hbody, ← hread, ← hread]
    exact MessageSchema.readBody_of_entries hentries rfl
  have hread : Message.declared id <$> catalog.readBody name =
      Message.declared id <$> catalog.readBody other := by
    simp only [readBody, map_bind, hwithin]
  have hcontents : ∀ message : Message, message.contents = (message.declared id).contents := by
    rintro ⟨contents, unknown, cache⟩
    simp only [Message.declared, Message.contents, Content.changed_id, List.map_id']
  have hdecode : ∀ name, (catalog.decode name bytes config).map Message.contents =
      (decodeWith (Message.declared id <$> catalog.readBody name) bytes config).map
        Message.contents := by
    intro name
    rw [decode, decodeWith, decodeWith, Reader.map_apply]
    cases catalog.readBody name (.ofBytes bytes config) with
    | ok message after => exact congrArg Except.ok (hcontents message)
    | error error after => rfl
  rw [hdecode, hdecode, hread]

end Entries

end Catalog

end ProtoWire
