import ProtoWire.Proofs.Numbering
import ProtoWire.Proofs.Payload
import ProtoWire.Samples

/-! # Decoding slot by slot

The content of an entry is worked out from the records that the entry takes, in their order, without
a look at the records of other entries. A byte string decodes as a message if it splits into records
and every entry makes a content of its own records; the records that no entry takes are kept.
-/

namespace ProtoWire

/-! ## Contents of entries
-/

/-- The member of a oneof that a record sets, by its place, with its value. -/
def OneofSchema.choice? (body : String → Bytes → Option Message) (schema : OneofSchema)
    (record : UnknownField) : Option (Nat × Value) := do
  let place ← schema.memberFor? record.tag
  let member ← schema.members[place]?
  let value ← member.type.interpret body record.value
  return (place, value)

namespace Entry

/-- The records that an entry takes, in their order. -/
def own (entry : Entry) (records : List UnknownField) : List UnknownField :=
  records.filter fun record => entry.accepts record.tag

theorem own_cons_of_accepts {entry : Entry} {record : UnknownField}
    (haccepts : entry.accepts record.tag = true) (records : List UnknownField) :
    entry.own (record :: records) = record :: entry.own records := by
  rw [own, List.filter_cons, if_pos haccepts, own]

theorem own_cons_of_not_accepts {entry : Entry} {record : UnknownField}
    (haccepts : entry.accepts record.tag = false) (records : List UnknownField) :
    entry.own (record :: records) = entry.own records := by
  rw [own, List.filter_cons, if_neg (Bool.eq_false_iff.mp haccepts), own]

/-- The content of an entry, given the records it takes. Each has to be a payload of the type of the
entry. The last one counts for a single value and for a oneof; elements are joined; map entries are
inserted one after the other. -/
def assemble? (catalog : Catalog) (body : String → Bytes → Option Message)
    (records : List UnknownField) : Entry → Option Content
  | .singular _ _ type _ nonNull => do
      let values ← records.mapM fun record => type.interpret body record.value
      match values.getLast? with
      | some value => some (.singular value)
      | none => if nonNull then none else some (.singular ((catalog.default? type).getD .absent))
  | .repeated _ _ element _ => do
      let runs ← records.mapM fun record => element.elements? body record.value
      return .repeated runs.flatten
  | .map _ _ key value _ => do
      let entries ← records.mapM fun record =>
        mapEntryOf body key value ((catalog.default? value).getD .absent) record.value
      return .mapping (entries.foldl (fun held entry => insertEntry entry.1 entry.2 held) [])
  | .oneof _ schema required => do
      let choices ← records.mapM (schema.choice? body)
      match choices.getLast? with
      | some choice => some (.chosen choice.1 choice.2)
      | none => if required then none else some .unset

end Entry

namespace MessageSchema

/-- The records that no entry takes, in their order. -/
def leftover (schema : MessageSchema) (records : List UnknownField) : List UnknownField :=
  records.filter fun record => !schema.entries.any (·.accepts record.tag)

/-- The message that records amount to: a content for each entry, worked out from the records it
takes, and the records that no entry takes, if they are kept. -/
def assemble? (catalog : Catalog) (body : String → Bytes → Option Message)
    (schema : MessageSchema) (records : List UnknownField) : Option Message := do
  let contents ← schema.entries.mapM fun entry => entry.assemble? catalog body (entry.own records)
  return .mk contents ⟨if schema.keepsUnknown then schema.leftover records else []⟩ .empty

end MessageSchema

namespace Catalog

/-- The message that the body of a message type is, with at most `levels` messages nested inside. -/
def message? (catalog : Catalog) : (levels : Nat) → String → Bytes → Option Message
  | 0, name, bytes => do
      let records ← Bytes.split? UnknownField.cut? bytes
      (catalog.schema name).assemble? catalog (fun _ _ => none) records
  | levels + 1, name, bytes => do
      let records ← Bytes.split? UnknownField.cut? bytes
      (catalog.schema name).assemble? catalog (catalog.message? levels) records

/-- The message that a nested payload is, when messages may be nested `levels` deep. -/
def nested? (catalog : Catalog) : (levels : Nat) → String → Bytes → Option Message
  | 0 => fun _ _ => none
  | levels + 1 => catalog.message? levels

theorem message_eq (catalog : Catalog) (levels : Nat) (name : String) (bytes : Bytes) :
    catalog.message? levels name bytes = (Bytes.split? UnknownField.cut? bytes).bind
      ((catalog.schema name).assemble? catalog (catalog.nested? levels)) := by
  cases levels <;> rfl

end Catalog

/-! ## One record at a time -/

/-- The slot of an entry after one more of its records. -/
def Entry.step (catalog : Catalog) (body : String → Bytes → Option Message)
    (slot : Option Content) (record : UnknownField) : Entry → Option (Option Content)
  | .singular _ _ type _ _ =>
      (type.interpret body record.value).map fun value => some (.singular value)
  | .repeated _ _ element _ =>
      (element.elements? body record.value).map fun values =>
        some (.repeated (Content.elements slot ++ values))
  | .map _ _ key value _ =>
      (mapEntryOf body key value ((catalog.default? value).getD .absent) record.value).map
        fun entry => some (.mapping (insertEntry entry.1 entry.2 (Content.mapEntries slot)))
  | .oneof _ schema _ =>
      (schema.choice? body record).map fun choice => some (.chosen choice.1 choice.2)

/-- What was gathered, after one more record that no entry takes: it is kept or passed over. -/
def MessageSchema.keep (schema : MessageSchema) (gathered : Gathered) (record : UnknownField) :
    Gathered :=
  if schema.keepsUnknown then { gathered with unknown := gathered.unknown.add record } else gathered

/-- What was gathered, after one more record. -/
def MessageSchema.step (catalog : Catalog) (body : String → Bytes → Option Message)
    (schema : MessageSchema) (gathered : Gathered) (record : UnknownField) : Option Gathered :=
  match schema.entryFor? record.tag with
  | some place =>
      match schema.entries[place]? with
      | some entry =>
          (entry.step catalog body (gathered.slots[place]?.getD none) record).map fun slot =>
            { gathered with slots := gathered.slots.set place slot }
      | none => some gathered
  | none => some (schema.keep gathered record)

namespace MessageSchema

variable {catalog : Catalog} {inner : String → Bytes → Option Message} {schema : MessageSchema}
  {gathered : Gathered} {record : UnknownField}

theorem step_of_taken {place : Nat} {entry : Entry}
    (hplace : schema.entryFor? record.tag = some place)
    (hentry : schema.entries[place]? = some entry) :
    schema.step catalog inner gathered record =
      (entry.step catalog inner (gathered.slots[place]?.getD none) record).map fun slot =>
        { gathered with slots := gathered.slots.set place slot } := by
  rw [step, hplace]
  dsimp only
  rw [hentry]

theorem step_of_leftover (hplace : schema.entryFor? record.tag = none) :
    schema.step catalog inner gathered record = some (schema.keep gathered record) := by
  rw [step, hplace]

end MessageSchema

namespace Reader

variable {levels : Nat} {body : String → ReaderM Message} {inner : String → Bytes → Option Message}

/-- Reading a record of an entry does to its slot what the step does. -/
theorem answers_readEntry (catalog : Catalog) (hbody : FollowsMessages levels body inner)
    {entry : Entry} (hnumbers : ∀ number ∈ entry.numbers, Tag.inRange number = true)
    {key : FieldKey} {reader : Reader} (hsound : Sound levels reader)
    (hkey : Tag.inRange key.number = true)
    (htag : reader.lastTag = Tag.make key.number key.wireType)
    (haccepts : entry.accepts (Tag.make key.number key.wireType) = true) (slot : Option Content) :
    Answers (entry.readRecord catalog body (Tag.make key.number key.wireType) slot) reader
      (UnknownValue.cutAs key.wireType
        (fun payload => entry.step catalog inner slot ⟨key.number, payload⟩) reader.window) := by
  cases entry with
  | singular name number type optional nonNull =>
      have hnumber := hnumbers number (List.mem_singleton_self number)
      have hwire := (Tag.make_injective hkey hnumber (beq_iff_eq.mp haccepts)).2
      rw [hwire]
      exact (follows_readValue hbody type).mapAs (fun value => some (Content.singular value)) reader
        hsound
  | repeated name number element packed =>
      have hnumber := hnumbers number (List.mem_singleton_self number)
      have hwire : key.wireType = element.wireType ∨ key.wireType = .len := by
        simp only [Entry.accepts, Bool.or_eq_true, beq_iff_eq] at haccepts
        rcases haccepts with h | h
        · exact .inl (Tag.make_injective hkey hnumber h).2
        · exact .inr (Tag.make_injective hkey hnumber h).2
      exact Answers.mapAs (answers_readElements hbody hsound hkey htag hwire) fun values =>
        some (Content.repeated (Content.elements slot ++ values))
  | map name number key' value order =>
      have hnumber := hnumbers number (List.mem_singleton_self number)
      have hwire := (Tag.make_injective hkey hnumber (beq_iff_eq.mp haccepts)).2
      rw [hwire]
      exact (follows_readMapEntry hbody key' value _).mapAs (fun entry =>
        some (Content.mapping (insertEntry entry.1 entry.2 (Content.mapEntries slot)))) reader hsound
  | oneof name schema required =>
      obtain ⟨place, hplace⟩ := Option.isSome_iff_exists.mp haccepts
      obtain ⟨hlt, htagged, _⟩ := List.findIdx?_eq_some_iff_getElem.mp hplace
      have hmember : schema.members[place]? = some schema.members[place] :=
        List.getElem?_eq_getElem hlt
      have hnumber := hnumbers _ (List.mem_map_of_mem (List.getElem_mem hlt))
      have hwire := (Tag.make_injective hnumber hkey (beq_iff_eq.mp htagged)).2
      have hchoice : ∀ payload : UnknownValue, payload.wireType = key.wireType →
          schema.choice? inner ⟨key.number, payload⟩ =
            (schema.members[place].type.interpret inner payload).map fun value =>
              (place, value) := by
        intro payload hpayload
        simp only [OneofSchema.choice?, UnknownField.tag, hpayload, hplace, hmember,
          Option.bind_eq_bind, Option.bind_some, Option.map_eq_bind]
        rfl
      have hread : Entry.readRecord catalog body (Tag.make key.number key.wireType)
          (.oneof name schema required) slot = schema.members[place].type.read body >>=
            fun value => pure (some (Content.chosen place value)) := by
        simp only [Entry.readRecord, OneofSchema.read, hplace, hmember, bind_assoc, pure_bind]
      rw [hread, UnknownValue.cutAs_congr fun payload hpayload => by
        rw [Entry.step, hchoice payload hpayload, Option.map_map], ← hwire]
      exact (follows_readValue hbody schema.members[place].type).mapAs _ reader hsound

/-- Reading a record of a message does to what was gathered what the step does. -/
theorem followsRecord_message (catalog : Catalog) (hbody : FollowsMessages levels body inner)
    {schema : MessageSchema} (hnumbered : schema.Numbered) :
    FollowsRecord levels (schema.readRecord catalog body) (schema.step catalog inner) := by
  intro key gathered reader hsound hkey htag
  change Answers _ reader (UnknownValue.cutAs key.wireType
    (fun payload => schema.step catalog inner gathered ⟨key.number, payload⟩) reader.window)
  have hrecord : ∀ payload : UnknownValue, payload.wireType = key.wireType →
      UnknownField.tag ⟨key.number, payload⟩ = Tag.make key.number key.wireType := by
    intro payload hpayload
    rw [UnknownField.tag, hpayload]
  have hsplit : Tag.split (Tag.make key.number key.wireType) = .ok key :=
    Tag.split_eq_ok_iff.mpr ⟨hkey, rfl⟩
  unfold MessageSchema.readRecord
  cases hplace : schema.entryFor? (Tag.make key.number key.wireType) with
  | none =>
      rw [UnknownValue.cutAs_congr fun payload hpayload =>
        MessageSchema.step_of_leftover (by rw [hrecord payload hpayload, hplace])]
      unfold MessageSchema.keep
      cases hkeeps : schema.keepsUnknown with
      | true =>
          exact (follows_readUnknown_as hsplit).mapAs (fun record =>
            { gathered with unknown := gathered.unknown.add record }) reader hsound
      | false => exact follows_skipField_as hsplit gathered reader hsound
  | some place =>
      obtain ⟨entry, hentry, haccepts⟩ := MessageSchema.accepts_of_entryFor hplace
      rw [UnknownValue.cutAs_congr fun payload hpayload =>
        MessageSchema.step_of_taken (by rw [hrecord payload hpayload, hplace]) hentry]
      have hnumbers : ∀ number ∈ entry.numbers, Tag.inRange number = true := fun number hnumber =>
        hnumbered.inRange (List.mem_of_getElem? hentry) hnumber
      dsimp only
      rw [hentry]
      exact Answers.mapAs
        (answers_readEntry catalog hbody hnumbers hsound hkey htag haccepts _) _

end Reader

/-! ## All records -/

namespace Entry

variable {catalog : Catalog} {inner : String → Bytes → Option Message}

/-- The content of an entry once the step has gone through some records. -/
def run? (catalog : Catalog) (body : String → Bytes → Option Message) (slot : Option Content)
    (records : List UnknownField) (entry : Entry) : Option Content := do
  let slot ← records.foldlM (fun slot record => entry.step catalog body slot record) slot
  (entry.finish catalog slot).toOption

/-- Going through a record after the other gives the last value. -/
theorem foldlM_last {α β : Type} (interpret : UnknownField → Option α) (make : α → β)
    (records : List UnknownField) (slot : Option β) :
    records.foldlM (fun (_ : Option β) record =>
        (interpret record).map fun value => some (make value)) slot =
      (records.mapM interpret).map fun values => (values.getLast?.map make).or slot := by
  induction records generalizing slot with
  | nil => rfl
  | cons record records ih =>
      rw [List.foldlM_cons, List.mapM_cons]
      cases interpret record with
      | none => rfl
      | some value =>
          simp only [Option.map_some, Option.bind_eq_bind, Option.bind_some, ih]
          cases records.mapM interpret with
          | none => rfl
          | some values =>
              simp only [Option.map_some, Option.bind_some, Option.pure_def, List.getLast?_cons]
              cases values.getLast? <;> rfl

/-- Going through a record after the other gathers all values. -/
theorem foldlM_gather {α γ : Type} (interpret : UnknownField → Option α) (gather : γ → α → γ)
    (make : γ → Content) (held : Option Content → γ) (hheld : ∀ content, held (some (make content)) =
      content) (records : List UnknownField) (slot : Option Content) :
    records.foldlM (fun slot record =>
        (interpret record).map fun value => some (make (gather (held slot) value))) slot =
      (records.mapM interpret).map fun values =>
        if values = [] then slot else some (make (values.foldl gather (held slot))) := by
  induction records generalizing slot with
  | nil => rfl
  | cons record records ih =>
      rw [List.foldlM_cons, List.mapM_cons]
      cases interpret record with
      | none => rfl
      | some value =>
          simp only [Option.map_some, Option.bind_eq_bind, Option.bind_some, ih]
          cases records.mapM interpret with
          | none => rfl
          | some values =>
              simp only [Option.map_some, Option.bind_some, Option.pure_def, hheld,
                List.foldl_cons, reduceCtorEq, if_false]
              cases values <;> rfl

/-- Going through the records of an entry makes the content that they make together. -/
theorem run_eq_assemble (entry : Entry) (records : List UnknownField) :
    entry.run? catalog inner none records = entry.assemble? catalog inner records := by
  cases entry with
  | singular name number type optional nonNull =>
      simp only [run?, step, assemble?, foldlM_last]
      cases records.mapM fun record => type.interpret inner record.value with
      | none => rfl
      | some values =>
          simp only [Option.map_some, Option.bind_eq_bind, Option.bind_some]
          cases values.getLast? with
          | some value => rfl
          | none => cases nonNull <;> rfl
  | repeated name number element packed =>
      simp only [run?, step, assemble?]
      rw [foldlM_gather (fun record => element.elements? inner record.value) (· ++ ·) .repeated
        Content.elements (fun _ => rfl)]
      cases records.mapM fun record => element.elements? inner record.value with
      | none => rfl
      | some runs =>
          simp only [Option.map_some, Option.bind_eq_bind, Option.bind_some]
          cases runs with
          | nil => rfl
          | cons run runs =>
              rw [if_neg (List.cons_ne_nil run runs), List.foldl_append_eq_append,
                List.map_id']
              rfl
  | map name number key value order =>
      simp only [run?, step, assemble?]
      rw [foldlM_gather (fun record => mapEntryOf inner key value
          ((catalog.default? value).getD .absent) record.value)
        (fun held entry => insertEntry entry.1 entry.2 held) .mapping
        Content.mapEntries (fun _ => rfl)]
      cases records.mapM fun record => mapEntryOf inner key value
          ((catalog.default? value).getD .absent) record.value with
      | none => rfl
      | some entries =>
          simp only [Option.map_some, Option.bind_eq_bind, Option.bind_some]
          cases entries with
          | nil => rfl
          | cons entry entries => rfl
  | oneof name schema required =>
      simp only [run?, step, assemble?, foldlM_last]
      cases records.mapM (schema.choice? inner) with
      | none => rfl
      | some choices =>
          simp only [Option.map_some, Option.bind_eq_bind, Option.bind_some]
          cases choices.getLast? with
          | some choice => rfl
          | none => cases required <;> rfl

end Entry

/-- The slots of entries after all records, each entry going through its own. -/
def gatherSlots? (catalog : Catalog) (body : String → Bytes → Option Message)
    (records : List UnknownField) : List Entry → List (Option Content) →
    Option (List (Option Content))
  | entry :: entries, slot :: slots => do
      let slot ← (entry.own records).foldlM
        (fun slot record => entry.step catalog body slot record) slot
      let slots ← gatherSlots? catalog body records entries slots
      return slot :: slots
  | _, _ => some []

section Gathering

variable {catalog : Catalog} {inner : String → Bytes → Option Message}

theorem gatherSlots_nil (entries : List Entry) (slots : List (Option Content))
    (hlength : slots.length = entries.length) :
    gatherSlots? catalog inner [] entries slots = some slots := by
  induction entries generalizing slots with
  | nil =>
      rw [List.length_nil, List.length_eq_zero_iff] at hlength
      rw [hlength]
      rfl
  | cons entry entries ih =>
      obtain ⟨slot, slots, rfl⟩ := List.exists_cons_of_length_eq_add_one hlength
      rw [gatherSlots?, ih slots (by simpa using hlength)]
      rfl

/-- A record that no entry takes leaves all slots as they are. -/
theorem gatherSlots_leftover {record : UnknownField} {entries : List Entry}
    (hleft : ∀ entry ∈ entries, entry.accepts record.tag = false) (records : List UnknownField)
    (slots : List (Option Content)) :
    gatherSlots? catalog inner (record :: records) entries slots =
      gatherSlots? catalog inner records entries slots := by
  induction entries generalizing slots with
  | nil => rfl
  | cons entry entries ih =>
      cases slots with
      | nil => rfl
      | cons slot slots =>
          have hentry := hleft entry List.mem_cons_self
          rw [gatherSlots?, gatherSlots?, ih (fun other hother =>
            hleft other (List.mem_cons_of_mem entry hother)), Entry.own_cons_of_not_accepts hentry]

/-- A record that one entry takes goes to the slot of that entry. -/
theorem gatherSlots_taken {record : UnknownField} {entries : List Entry} {place : Nat}
    {entry : Entry} (hentry : entries[place]? = some entry)
    (haccepts : entry.accepts record.tag = true)
    (hothers : ∀ other place', entries[place']? = some other → other.accepts record.tag = true →
      place' = place) (records : List UnknownField) {slots : List (Option Content)}
    (hlength : slots.length = entries.length) :
    gatherSlots? catalog inner (record :: records) entries slots =
      (entry.step catalog inner (slots[place]?.getD none) record).bind fun slot =>
        gatherSlots? catalog inner records entries (slots.set place slot) := by
  induction entries generalizing place slots with
  | nil => cases hentry
  | cons first entries ih =>
      obtain ⟨slot, slots, rfl⟩ := List.exists_cons_of_length_eq_add_one hlength
      cases place with
      | zero =>
          cases hentry
          -- No entry behind the first takes the record as well, or it would stand at two places.
          have hleft : ∀ other ∈ entries, other.accepts record.tag = false := by
            intro other hother
            obtain ⟨place', hplace'⟩ := List.mem_iff_getElem?.mp hother
            by_contra htaken
            have hzero := hothers other (place' + 1) hplace' (by simpa using htaken)
            omega
          rw [gatherSlots?, gatherSlots_leftover hleft, Entry.own_cons_of_accepts haccepts,
            List.foldlM_cons]
          simp only [Option.bind_eq_bind, Option.bind_assoc, List.getElem?_cons_zero,
            Option.getD_some, List.set_cons_zero]
          rfl
      | succ place =>
          have hfirst : first.accepts record.tag = false := by
            by_contra htaken
            have hzero := hothers first 0 rfl (by simpa using htaken)
            omega
          have hothersRest : ∀ (other : Entry) (place' : Nat), entries[place']? = some other →
              other.accepts record.tag = true → place' = place := by
            intro other place' hplace' htaken
            have hsucc := hothers other (place' + 1) hplace' htaken
            omega
          rw [gatherSlots?, Entry.own_cons_of_not_accepts hfirst, ih hentry hothersRest
            (by simpa using hlength)]
          simp only [Option.bind_eq_bind, List.getElem?_cons_succ, List.set_cons_succ, gatherSlots?]
          cases entry.step catalog inner (slots[place]?.getD none) record with
          | none => simp only [Option.bind_none, Option.bind_fun_none]
          | some slot => rfl

/-- Going through all records goes, for each entry, through the records it takes. -/
theorem foldlM_step {schema : MessageSchema} (hnumbered : schema.Numbered)
    (records : List UnknownField) (gathered : Gathered)
    (hlength : gathered.slots.length = schema.entries.length) :
    records.foldlM (schema.step catalog inner) gathered =
      (gatherSlots? catalog inner records schema.entries gathered.slots).map fun slots =>
        ⟨slots, ⟨gathered.unknown.fields ++
          if schema.keepsUnknown then schema.leftover records else []⟩⟩ := by
  -- The slots change record by record, so the statement is about whatever was gathered before.
  induction records generalizing gathered with
  | nil =>
      rw [gatherSlots_nil _ _ hlength]
      simp [MessageSchema.leftover]
  | cons record records ih =>
      rw [List.foldlM_cons]
      cases hplace : schema.entryFor? record.tag with
      | none =>
          have hleft := (schema.entryFor_eq_none_iff record.tag).mp hplace
          have hnone : schema.entries.any (·.accepts record.tag) = false :=
            List.any_eq_false.mpr fun entry hentry => Bool.eq_false_iff.mp (hleft entry hentry)
          rw [MessageSchema.step_of_leftover hplace, gatherSlots_leftover hleft]
          simp only [Option.bind_eq_bind, Option.bind_some]
          rw [MessageSchema.keep]
          cases hkeeps : schema.keepsUnknown with
          | false =>
              rw [if_neg Bool.false_ne_true, ih gathered hlength, hkeeps]
              rfl
          | true =>
              rw [if_pos rfl, ih ⟨gathered.slots, gathered.unknown.add record⟩ hlength, hkeeps]
              simp only [MessageSchema.leftover, List.filter_cons, hnone, Bool.not_false, if_true,
                UnknownFieldSet.add, List.append_assoc, List.cons_append, List.nil_append]
      | some place =>
          obtain ⟨entry, hentry, haccepts⟩ := MessageSchema.accepts_of_entryFor hplace
          have hothers : ∀ other place', schema.entries[place']? = some other →
              other.accepts record.tag = true → place' = place := fun other place' hother htaken =>
            hnumbered.place_eq_of_accepts hother hentry htaken haccepts
          have htaken : schema.entries.any (·.accepts record.tag) = true :=
            List.any_eq_true.mpr ⟨entry, List.mem_of_getElem? hentry, haccepts⟩
          rw [MessageSchema.step_of_taken hplace hentry,
            gatherSlots_taken hentry haccepts hothers records hlength]
          cases entry.step catalog inner (gathered.slots[place]?.getD none) record with
          | none => rfl
          | some slot =>
              simp only [Option.map_some, Option.bind_eq_bind, Option.bind_some]
              rw [ih _ (by rw [List.length_set, hlength])]
              simp only [MessageSchema.leftover, List.filter_cons, htaken, Bool.not_true,
                Bool.false_eq_true, if_false]

theorem toOption_bind {α β : Type} (outcome : Except DecodeError α)
    (next : α → Except DecodeError β) :
    (outcome >>= next).toOption = outcome.toOption.bind fun value => (next value).toOption := by
  cases outcome <;> rfl

/-- The contents of all entries are made of the records each entry takes. -/
theorem finishEntries_gatherSlots (records : List UnknownField) (entries : List Entry) :
    ((gatherSlots? catalog inner records entries (entries.map fun _ => none)).bind fun slots =>
        (finishEntries catalog entries slots).toOption) =
      entries.mapM fun entry => entry.assemble? catalog inner (entry.own records) := by
  induction entries with
  | nil => rfl
  | cons entry entries ih =>
      rw [List.mapM_cons, ← ih, ← Entry.run_eq_assemble, List.map_cons, gatherSlots?, Entry.run?]
      simp only [Option.bind_eq_bind, Option.bind_assoc]
      congr 1
      funext slot
      cases gatherSlots? catalog inner records entries (entries.map fun _ => none) with
      | none => simp only [Option.bind_none, Option.bind_fun_none]
      | some slots =>
          simp only [Option.bind_some, Option.pure_def, finishEntries, toOption_bind,
            List.head?_cons, Option.getD_some, List.tail_cons]
          rfl

end Gathering

/-! ## Message bodies -/

namespace Reader

variable {levels : Nat} {body : String → ReaderM Message} {inner : String → Bytes → Option Message}

theorem follows_finish (catalog : Catalog) (entries : List Entry) (gathered : Gathered) :
    Follows levels
      (match finishEntries catalog entries gathered.slots with
        | .ok contents => pure (.mk contents gathered.unknown .empty)
        | .error error => throw error : ReaderM Message)
      fun bytes => (finishEntries catalog entries gathered.slots).toOption.map
        fun contents => (.mk contents gathered.unknown .empty, bytes) := by
  intro reader hsound
  cases finishEntries catalog entries gathered.slots with
  | ok contents => exact Follows.pure _ reader hsound
  | error error => exact ⟨error, reader, rfl⟩

theorem follows_readBodyOf (catalog : Catalog) (hbody : FollowsMessages levels body inner)
    {schema : MessageSchema} (hnumbered : schema.Numbered) :
    Follows levels (schema.readBody catalog body) fun bytes =>
      ((Bytes.split? UnknownField.cut? bytes).bind (schema.assemble? catalog inner)).map
        (·, []) := by
  have hrecords : Follows levels (readToLimit (schema.readRecord catalog body)
      ⟨schema.entries.map fun _ => none, .empty⟩) _ :=
    follows_readToLimit (followsRecord_message catalog hbody hnumbered) _
  refine (hrecords.bind (follows_finish catalog schema.entries)).congr fun bytes => ?_
  cases hsplit : Bytes.split? UnknownField.cut? bytes with
  | none => simp only [foldRecords?, hsplit, Option.bind_none, Option.map_none]
  | some records =>
      have hfold := @foldlM_step catalog inner schema hnumbered records
        ⟨schema.entries.map fun _ => none, .empty⟩ (List.length_map _)
      simp only [foldRecords?, hsplit, Option.bind_some, hfold, MessageSchema.assemble?,
        ← finishEntries_gatherSlots, Option.bind_map, Option.bind_eq_bind, Function.comp_def,
        Option.map_map, Option.bind_assoc, Option.map_bind]
      congr 1
      funext slots
      exact Option.map_eq_bind

/-- Reading a body gives the message that its bytes are. -/
theorem follows_readBodyWithin {catalog : Catalog} (hnumbered : catalog.Numbered) (levels : Nat)
    (name : String) :
    Follows levels (catalog.readBodyWithin levels name) fun bytes =>
      (catalog.message? levels name bytes).map (·, []) := by
  induction levels generalizing name with
  | zero =>
      have hbody : FollowsMessages 0 (fun _ => do
          throw (.recursionLimitExceeded (← get).config.recursionLimit)) (fun _ _ => none) :=
        fun _ => (follows_readMessage_zero _).congr fun bytes => (Option.bind_fun_none _).symm
      exact follows_readBodyOf catalog hbody (hnumbered.schema name)
  | succ levels ih =>
      have hbody : FollowsMessages (levels + 1) (catalog.readBodyWithin levels)
          (catalog.message? levels) := fun name => follows_readMessage (ih name)
      exact follows_readBodyOf catalog hbody (hnumbered.schema name)

/-- Reading a body gives the message that its bytes are, however deep the reader is. -/
theorem follows_readBody {catalog : Catalog} (hnumbered : catalog.Numbered) (levels : Nat)
    (name : String) :
    Follows levels (catalog.readBody name) fun bytes =>
      (catalog.message? levels name bytes).map (·, []) := by
  intro reader hsound
  refine (follows_readBodyWithin hnumbered levels name reader hsound).of_eq ?_
  rw [← hsound.levels_eq]
  rfl

theorem followsMessages_readBody {catalog : Catalog} (hnumbered : catalog.Numbered)
    (levels : Nat) : FollowsMessages levels catalog.readBody (catalog.nested? levels) := by
  intro name
  cases levels with
  | zero => exact (follows_readMessage_zero _).congr fun bytes => (Option.bind_fun_none _).symm
  | succ levels => exact follows_readMessage (follows_readBody hnumbered levels name)

theorem sound_ofBytes (bytes : Bytes) (config : ReaderConfig) :
    Sound config.recursionLimit (.ofBytes bytes config) where
  position_le := Nat.zero_le bytes.length
  limit_le := by simp [ofBytes]
  levels_eq := rfl

theorem window_ofBytes (bytes : Bytes) (config : ReaderConfig) :
    (ofBytes bytes config).window = bytes := by
  rw [window_eq (sound_ofBytes bytes config)]
  simp [ofBytes]

end Reader

namespace Catalog

/-- Decoding gives the message that the bytes are, and fails where they are none. -/
theorem decode_toOption {catalog : Catalog} (hnumbered : catalog.Numbered) (name : String)
    (bytes : Bytes) (config : ReaderConfig) :
    (catalog.decode name bytes config).toOption =
      catalog.message? config.recursionLimit name bytes := by
  have hanswers := Reader.follows_readBody hnumbered config.recursionLimit name _
    (Reader.sound_ofBytes bytes config)
  rw [Reader.window_ofBytes] at hanswers
  dsimp only at hanswers
  rw [decode, decodeWith]
  cases hmessage : catalog.message? config.recursionLimit name bytes with
  | none =>
      rw [hmessage] at hanswers
      obtain ⟨error, after, hread⟩ := hanswers
      rw [hread]
      rfl
  | some message =>
      rw [hmessage] at hanswers
      obtain ⟨_, tag, hread⟩ := hanswers
      rw [hread]
      rfl

theorem decode_eq_ok_iff {catalog : Catalog} (hnumbered : catalog.Numbered) {name : String}
    {bytes : Bytes} {config : ReaderConfig} {message : Message} :
    catalog.decode name bytes config = .ok message ↔
      catalog.message? config.recursionLimit name bytes = some message := by
  rw [← decode_toOption hnumbered]
  cases catalog.decode name bytes config <;> simp [Except.toOption]

end Catalog

end ProtoWire
