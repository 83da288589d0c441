import ProtoWire.Proofs.Decoded

/-! # Messages are read as messages of their types

Whatever bytes a message body is read from, and whatever numbers the entries of its type carry, what
is read is a message of that type in which nothing is remembered.
-/

namespace ProtoWire

namespace Reader

variable {α β σ : Type}

/-- Whatever a read gives has a property. -/
def Yields (keeps : α → Prop) (read : ReaderM α) : Prop :=
  ∀ reader value after, read reader = .ok value after → keeps value

namespace Yields

variable {keeps : α → Prop} {gives : β → Prop}

theorem pure {value : α} (hvalue : keeps value) : Yields keeps (Pure.pure value : ReaderM α) := by
  intro reader given after hread
  cases hread
  exact hvalue

theorem fail {read : ReaderM α}
    (hfails : ∀ reader, ∃ error after, read reader = .error error after) : Yields keeps read := by
  intro reader given after hread
  obtain ⟨error, failed, herror⟩ := hfails reader
  rw [herror] at hread
  cases hread

theorem trivial (read : ReaderM α) : Yields (fun _ => True) read := fun _ _ _ _ => True.intro

theorem bind {read : ReaderM α} {next : α → ReaderM β} (hread : Yields keeps read)
    (hnext : ∀ value, keeps value → Yields gives (next value)) : Yields gives (read >>= next) := by
  intro reader given after hboth
  obtain ⟨value, middle, hfirst, hgiven⟩ := ok_of_bind hboth
  exact hnext value (hread reader value middle hfirst) middle given after hgiven

theorem map {read : ReaderM α} (hread : Yields keeps read) {change : α → β}
    (hchange : ∀ value, keeps value → gives (change value)) :
    Yields gives (read >>= fun value => Pure.pure (change value)) :=
  hread.bind fun value hvalue => .pure (hchange value hvalue)

theorem mapped {read : ReaderM α} {change : α → β} (hchange : ∀ value, gives (change value)) :
    Yields gives (read >>= fun value => Pure.pure (change value)) :=
  (trivial read).map fun value _ => hchange value

/-- What every record keeps holds after all of them. -/
theorem readToLimit {keeps : σ → Prop} {record : UInt32 → σ → ReaderM σ}
    (hrecord : ∀ tag state, keeps state → Yields keeps (record tag state)) {state : σ}
    (hstate : keeps state) : Yields keeps (Reader.readToLimit record state) := by
  have hrecords : ∀ fuel state, keeps state → Yields keeps (readRecords record fuel state) := by
    intro fuel
    induction fuel with
    | zero => exact fun state hstate => .pure hstate
    | succ fuel ih =>
        intro state hstate
        refine (trivial readTag).bind fun tag _ => ?_
        by_cases hend : tag = 0
        · simp only [hend, if_true]
          exact .pure hstate
        · simp only [hend, if_false]
          exact (hrecord tag state hstate).bind fun next hnext => ih next hnext
  exact (trivial _).bind fun reader _ => hrecords _ state hstate

theorem within {length : Nat} {body : ReaderM α} (hbody : Yields keeps body) :
    Yields keeps (Reader.within length body) :=
  (trivial _).bind fun _ _ => hbody.bind fun _ hvalue => (trivial _).bind fun _ _ => .pure hvalue

theorem oneDeeper {body : ReaderM α} (hbody : Yields keeps body) :
    Yields keeps (Reader.oneDeeper body) := by
  intro reader value after hread
  rw [Reader.oneDeeper] at hread
  split at hread
  next hinner =>
    cases hread
    exact hbody _ _ _ hinner
  next => cases hread

theorem readMessage {body : ReaderM α} (hbody : Yields keeps body) :
    Yields keeps (Reader.readMessage body) := by
  rw [readMessage_eq]
  refine (trivial readLength).bind fun length _ reader value after hread => ?_
  rw [readMessageOf] at hread
  split at hread
  next => cases hread
  next =>
    have hmessage : Yields keeps (Reader.within length (Reader.oneDeeper body) >>= fun message => do
        modify fun after => { after with lastTag := reader.lastTag }
        return message) :=
      hbody.oneDeeper.within.bind fun message hkeeps => (trivial _).bind fun _ _ => .pure hkeeps
    exact hmessage reader value after hread

theorem readRun {element : ReaderM α} (helement : Yields keeps element) {fuel : Nat}
    {read : List α} (hread : ∀ value ∈ read, keeps value) (reader : Reader) :
    ∀ value ∈ (Reader.readRun element fuel read reader).elements, keeps value := by
  induction fuel generalizing read reader with
  | zero => exact fun value hvalue => hread value (List.mem_reverse.mp hvalue)
  | succ fuel ih =>
      rw [Reader.readRun]
      split
      next =>
        split
        next value after hvalue =>
          refine ih (fun other hother => ?_) after
          rcases List.mem_cons.mp hother with rfl | hother
          · exact helement _ _ _ hvalue
          · exact hread other hother
        next => exact fun value hvalue => hread value (List.mem_reverse.mp hvalue)
      next => exact fun value hvalue => hread value (List.mem_reverse.mp hvalue)

theorem readRepeated {element : WireType} {body : ReaderM α} (hbody : Yields keeps body) :
    Yields (fun values => ∀ value ∈ values, keeps value) (Reader.readRepeated element body) := by
  intro reader values after hread
  have helements : ∀ value ∈ (readOccurrence element body reader).elements, keeps value := by
    rw [readOccurrence]
    split
    next =>
      split
      next => exact fun _ hnone => (List.not_mem_nil hnone).elim
      next after _ =>
        have hrun : ∀ value ∈
            (Reader.readRun body (after.buffer.size - after.position) [] after).elements,
              keeps value :=
          readRun hbody (fun _ hnone => (List.not_mem_nil hnone).elim) after
        dsimp only
        split <;> exact hrun
    next =>
      split
      next value after hvalue =>
        intro other hother
        rw [List.mem_singleton.mp hother]
        exact hbody _ _ _ hvalue
      next => exact fun _ hnone => (List.not_mem_nil hnone).elim
  rw [Reader.readRepeated] at hread
  split at hread
  next =>
    cases hread
    exact helements
  next => cases hread

end Yields

theorem yields_readScalar (type : ScalarType) :
    Yields (fun scalar => scalar.type = type) type.read := by
  cases type <;> exact .mapped fun _ => rfl

end Reader

open Reader

/-- Nothing is remembered in a message itself. -/
def Message.Forgetful (_ : MessageSchema) (message : Message) : Prop := message.cache = .empty

/-- What is gathered for an entry is a content of it, with the entries of a map in the order of
keys. -/
structure Entry.Gathers (catalog : Catalog) (entry : Entry) (slot : Option Content) : Prop where
  conforms : ∀ content, slot = some content → content.Conforms catalog Message.Forgetful entry
  sorted : MapOrder.byKey.Arranges (Content.mapEntries slot)

namespace Entry.Gathers

variable {catalog : Catalog} {slot : Option Content}

theorem elements {name : String} {number : UInt32} {element : ValueType} {packed : Option Bool}
    (hslot : (Entry.repeated name number element packed).Gathers catalog slot) :
    ∀ value ∈ Content.elements slot, value.Conforms catalog Message.Forgetful element := by
  cases slot with
  | none => exact fun _ => nofun
  | some content =>
      cases hslot.conforms content rfl with
      | repeated _ _ _ _ values hvalues => exact hvalues

theorem mapEntries {name : String} {number : UInt32} {key : ScalarType} {type : ValueType}
    {order : MapOrder} (hslot : (Entry.map name number key type order).Gathers catalog slot) :
    (∀ entry ∈ Content.mapEntries slot, entry.1.type = key) ∧
      ∀ entry ∈ Content.mapEntries slot, entry.2.Conforms catalog Message.Forgetful type := by
  cases slot with
  | none => exact ⟨fun _ => nofun, fun _ => nofun⟩
  | some content =>
      cases hslot.conforms content rfl with
      | mapping _ _ _ _ _ entries hkeys _ hvalues => exact ⟨hkeys, hvalues⟩

end Entry.Gathers

section Entries

variable {catalog : Catalog} {body : String → ReaderM Message}

theorem default_conforms {type : ValueType} (hdefaulted : (catalog.default? type).isSome = true) :
    ((catalog.default? type).getD .absent).Conforms catalog Message.Forgetful type := by
  have hdefault := (decoded_default hdefaulted).conforms
  exact (inherits_both fun _ _ hfresh _ => hfresh.cache_eq).of_value hdefault hdefault

section Bodies

variable (hbody : ∀ name,
  Yields (fun message => message.Conforms catalog Message.Forgetful (catalog.schema name))
    (body name))
include hbody

theorem yields_readValue (type : ValueType) :
    Yields (fun value => value.Conforms catalog Message.Forgetful type) (type.read body) := by
  induction type with
  | scalar type =>
      exact (yields_readScalar type).map fun scalar htype => .scalar type scalar htype
  | enumeration schema => exact .mapped fun value => .enumeration schema _
  | message name =>
      exact (hbody name).readMessage.map fun message hmessage => .message name message hmessage
  | option inner ih => exact ih.map fun value hvalue => .present inner value hvalue
  | converted converter wire ih =>
      exact ih.map fun value hvalue => .reference converter wire .wire value hvalue

theorem yields_readMapEntry {key : ScalarType} {type : ValueType} {default : Value}
    (hdefault : default.Conforms catalog Message.Forgetful type) :
    Yields (fun entry => entry.1.type = key ∧ entry.2.Conforms catalog Message.Forgetful type)
      (readMapEntry body key type default) := by
  let keeps (found : Option Scalar × Option Value) : Prop :=
    (∀ scalar, found.1 = some scalar → scalar.type = key) ∧
      ∀ value, found.2 = some value → value.Conforms catalog Message.Forgetful type
  have hrecord : ∀ tag found, keeps found →
      Yields keeps (readMapRecord body key type tag found) := by
    intro tag found hfound
    rw [readMapRecord]
    split
    next =>
      refine (yields_readScalar key).map fun scalar hscalar => ⟨fun other hother => ?_, hfound.2⟩
      cases hother
      exact hscalar
    next =>
      split
      next =>
        refine (yields_readValue hbody type).map fun value hvalue =>
          ⟨hfound.1, fun other hother => ?_⟩
        cases hother
        exact hvalue
      next => exact .mapped fun _ => hfound
  refine (Yields.trivial readLength).bind fun length _ => (Yields.trivial _).bind fun _ _ => ?_
  have hnothing : keeps (none, none) :=
    ⟨fun _ hnone => (nomatch hnone), fun _ hnone => (nomatch hnone)⟩
  refine (Yields.readToLimit hrecord hnothing).bind fun found hfound => ?_
  refine .mapped fun _ => ⟨?_, ?_⟩
  · cases hkey : found.1 with
    | none => cases key <;> rfl
    | some scalar => exact hfound.1 scalar hkey
  · cases hvalue : found.2 with
    | none => exact hdefault
    | some value => exact hfound.2 value hvalue

theorem yields_readOneof (schema : OneofSchema) (tag : UInt32) :
    Yields (fun choice => ∀ chosen : Nat × Value, choice = some chosen →
      ∃ member, schema.members[chosen.1]? = some member ∧
        chosen.2.Conforms catalog Message.Forgetful member.type) (schema.read body tag) := by
  rw [OneofSchema.read]
  cases schema.memberFor? tag with
  | none => exact .pure fun _ hnone => by cases hnone
  | some place =>
      dsimp only
      cases hmember : schema.members[place]? with
      | none => exact .pure fun _ hnone => by cases hnone
      | some member =>
          refine (yields_readValue hbody member.type).map fun value hvalue chosen hchosen => ?_
          cases hchosen
          exact ⟨member, hmember, hvalue⟩

/-- A record read into the slot of its entry leaves a content of the entry. -/
theorem yields_readRecord {entry : Entry} (hdefaulted : entry.defaulted catalog = true)
    (hkeyed : entry.keyed = true) (tag : UInt32) {slot : Option Content}
    (hslot : entry.Gathers catalog slot) :
    Yields (entry.Gathers catalog) (entry.readRecord catalog body tag slot) := by
  cases entry with
  | singular name number type optional nonNull =>
      refine (yields_readValue hbody type).map fun value hvalue =>
        ⟨fun content hcontent => ?_, .nil⟩
      cases hcontent
      exact .singular name number type optional nonNull value hvalue
  | repeated name number element packed =>
      refine (yields_readValue hbody element).readRepeated.map fun values hvalues =>
        ⟨fun content hcontent => ?_, .nil⟩
      cases hcontent
      refine .repeated name number element packed _ fun value hvalue => ?_
      rcases List.mem_append.mp hvalue with hheld | hnew
      · exact hslot.elements value hheld
      · exact hvalues value hnew
  | map name number key type order =>
      obtain ⟨hkeys, hvalues⟩ := hslot.mapEntries
      refine (yields_readMapEntry hbody (default_conforms hdefaulted)).map fun entry hentry => ?_
      -- Whatever order the map is written in, its entries are gathered in the order of the keys.
      have hsorted := insertEntry_byKey (hentry.1.symm ▸ hkeyed)
        (fun held hheld => (hkeys held hheld).trans hentry.1.symm) hslot.sorted entry.2
      refine ⟨fun content hcontent => ?_, hsorted⟩
      cases hcontent
      refine .mapping name number key type order _ ?_ (hsorted.of_byKey order) ?_
      · intro held hheld
        rcases mem_insertEntry hheld with rfl | hheld
        · exact hentry.1
        · exact hkeys held hheld
      · intro held hheld
        rcases mem_insertEntry hheld with rfl | hheld
        · exact hentry.2
        · exact hvalues held hheld
  | oneof name schema required =>
      refine (yields_readOneof hbody schema tag).bind fun choice hchoice => ?_
      cases choice with
      | none => exact .pure hslot
      | some choice =>
          obtain ⟨member, hmember, hvalue⟩ := hchoice choice rfl
          refine .pure ⟨fun content hcontent => ?_, .nil⟩
          cases hcontent
          exact .chosen name schema required choice.1 member choice.2 hmember hvalue

end Bodies

/-! ## Messages -/

/-- What is gathered for the entries of a message type are contents of them. -/
def Gathered.Fits (catalog : Catalog) (entries : List Entry) (slots : List (Option Content)) :
    Prop :=
  ∀ (place : Nat) (entry : Entry), entries[place]? = some entry →
    entry.Gathers catalog (slots[place]?.getD none)

theorem Entry.gathers_none (entry : Entry) : entry.Gathers catalog none :=
  ⟨fun _ hnone => (nomatch hnone), .nil⟩

theorem Gathered.Fits.set {entries : List Entry} {slots : List (Option Content)}
    (hslots : Fits catalog entries slots) {place : Nat} {entry : Entry} {slot : Option Content}
    (hentry : entries[place]? = some entry) (hslot : entry.Gathers catalog slot) :
    Fits catalog entries (slots.set place slot) := by
  intro other entry' hentry'
  rw [List.getElem?_set]
  split
  next hsame =>
    rw [← hsame, hentry] at hentry'
    cases hentry'
    -- A place beyond the slots stays without a content.
    split
    next => exact hslot
    next => exact entry.gathers_none
  next => exact hslots other entry' hentry'

theorem conforms_of_finish {entry : Entry} (hdefaulted : entry.defaulted catalog = true)
    {slot : Option Content} (hslot : entry.Gathers catalog slot) {content : Content}
    (hfinish : entry.finish catalog slot = .ok content) :
    content.Conforms catalog Message.Forgetful entry := by
  cases slot with
  | some held =>
      have hsame : held = content := by cases entry <;> cases hfinish <;> rfl
      exact hsame ▸ hslot.conforms held rfl
  | none =>
      cases entry with
      | singular name number type optional nonNull =>
          cases nonNull with
          | true => cases hfinish
          | false =>
              cases hfinish
              exact .singular name number type optional false _ (default_conforms hdefaulted)
      | repeated name number element packed =>
          cases hfinish
          exact .repeated name number element packed [] fun _ => nofun
      | map name number key type order =>
          cases hfinish
          refine .mapping name number key type order [] (fun _ => nofun) ?_ fun _ => nofun
          exact MapOrder.Arranges.of_byKey .nil order
      | oneof name schema required =>
          cases required with
          | true => cases hfinish
          | false =>
              cases hfinish
              exact .unset name schema

theorem contentsConform_of_finish {entries : List Entry}
    (hdefaulted : ∀ entry ∈ entries, entry.defaulted catalog = true) {slots : List (Option Content)}
    (hslots : Gathered.Fits catalog entries slots) {contents : List Content}
    (hfinish : finishEntries catalog entries slots = .ok contents) :
    ContentsConform catalog Message.Forgetful entries contents := by
  induction entries generalizing slots contents with
  | nil =>
      cases hfinish
      exact .nil
  | cons entry entries ih =>
      rw [finishEntries] at hfinish
      cases hfirst : entry.finish catalog (slots.head?.getD none) with
      | error error =>
          rw [hfirst] at hfinish
          cases hfinish
      | ok content =>
          rw [hfirst] at hfinish
          cases hrest : finishEntries catalog entries slots.tail with
          | error error =>
              rw [hrest] at hfinish
              cases hfinish
          | ok rest =>
              rw [hrest] at hfinish
              cases hfinish
              refine .cons entry content entries rest ?_ (ih ?_ ?_ hrest)
              · refine conforms_of_finish (hdefaulted entry List.mem_cons_self) ?_ hfirst
                rw [List.head?_eq_getElem?]
                exact hslots 0 entry rfl
              · exact fun other hother => hdefaulted other (List.mem_cons_of_mem entry hother)
              · intro place other hother
                rw [List.getElem?_tail]
                exact hslots (place + 1) other hother

theorem yields_readBody (hdefaulted : catalog.Defaulted) (hkeyed : catalog.Keyed)
    (hbody : ∀ name,
      Yields (fun message => message.Conforms catalog Message.Forgetful (catalog.schema name))
        (body name)) (name : String) :
    Yields (fun message => message.Conforms catalog Message.Forgetful (catalog.schema name))
      ((catalog.schema name).readBody catalog body) := by
  have hrecord : ∀ tag gathered,
      Gathered.Fits catalog (catalog.schema name).entries gathered.slots →
        Yields (fun gathered => Gathered.Fits catalog (catalog.schema name).entries gathered.slots)
          ((catalog.schema name).readRecord catalog body tag gathered) := by
    intro tag gathered hgathered
    rw [MessageSchema.readRecord]
    cases (catalog.schema name).entryFor? tag with
    | none =>
        dsimp only
        split
        next => exact .mapped fun _ => hgathered
        next => exact .mapped fun _ => hgathered
    | some place =>
        dsimp only
        cases hentry : (catalog.schema name).entries[place]? with
        | none => exact .pure hgathered
        | some entry =>
            have hmem := List.mem_of_getElem? hentry
            exact (yields_readRecord hbody (hdefaulted.schema name entry hmem)
              (hkeyed.schema name entry hmem) tag (hgathered place entry hentry)).map
                fun slot hslot => hgathered.set hentry hslot
  have hstart : Gathered.Fits catalog (catalog.schema name).entries
      ((catalog.schema name).entries.map fun _ => none) := by
    intro place entry hentry
    rw [List.getElem?_map, hentry]
    exact entry.gathers_none
  refine (Yields.readToLimit hrecord hstart).bind fun gathered hgathered => ?_
  cases hfinish : finishEntries catalog (catalog.schema name).entries gathered.slots with
  | error error => exact .fail fun reader => ⟨error, reader, rfl⟩
  | ok contents =>
      have hcontents := contentsConform_of_finish (hdefaulted.schema name) hgathered hfinish
      exact .pure (.mk _ contents gathered.unknown .empty rfl hcontents)

theorem yields_readBodyWithin (hdefaulted : catalog.Defaulted) (hkeyed : catalog.Keyed)
    (levels : Nat) (name : String) :
    Yields (fun message => message.Conforms catalog Message.Forgetful (catalog.schema name))
      (catalog.readBodyWithin levels name) := by
  induction levels generalizing name with
  | zero =>
      refine yields_readBody hdefaulted hkeyed (fun _ => .fail fun reader => ?_) name
      exact ⟨_, reader, rfl⟩
  | succ levels ih => exact yields_readBody hdefaulted hkeyed ih name

/-- What a reader makes of a body is a message of the type that remembers nothing. -/
theorem yields_catalogBody (hdefaulted : catalog.Defaulted) (hkeyed : catalog.Keyed)
    (name : String) :
    Yields (fun message => message.Conforms catalog Message.Forgetful (catalog.schema name))
      (catalog.readBody name) := fun reader =>
  yields_readBodyWithin hdefaulted hkeyed (reader.config.recursionLimit - reader.depth) name reader

theorem keeps_of_decodeWith {α : Type} {keeps : α → Prop} {read : ReaderM α}
    (hread : Yields keeps read) {bytes : Bytes} {config : ReaderConfig} {value : α}
    (hdecode : Catalog.decodeWith read bytes config = .ok value) : keeps value := by
  rw [Catalog.decodeWith] at hdecode
  split at hdecode
  next found after hok =>
    cases hdecode
    exact hread _ _ _ hok
  next => cases hdecode

end Entries

end ProtoWire
