import Mathlib.Logic.Relation
import ProtoWire.Proofs.Balanced

/-! # Missing fields

No read but that of a message body tells a field as missing, and a body tells an entry that its
descriptor marks as required. So the field that decoding tells is one of the message type decoded or
of a type whose messages lie in it.
-/

namespace ProtoWire

/-! ## Required fields
-/

/-- Whether decoding fails without the entry. -/
def EntryDescriptor.isRequired : EntryDescriptor → Bool
  | .standard field => field.nonNull
  | .oneof group => group.required

def EntryDescriptor.name : EntryDescriptor → String
  | .standard field => field.name
  | .oneof group => group.name

/-- Whether a field that is never null or a oneof that is required has the name. -/
def MessageDescriptor.Requires (descriptor : MessageDescriptor) (name : String) : Prop :=
  ∃ entry ∈ descriptor.entries, entry.isRequired = true ∧ entry.name = name

theorem Entry.isRequired_descriptor (dialect : Dialect) (entry : Entry) :
    (entry.descriptor dialect).isRequired = entry.isRequired := by
  cases entry <;> rfl

theorem Entry.name_descriptor (dialect : Dialect) (entry : Entry) :
    (entry.descriptor dialect).name = entry.name := by
  cases entry <;> rfl

/-- Whether messages of the first type may lie in messages of the second, at any depth. -/
def Catalog.Holds (catalog : Catalog) : String → String → Prop :=
  Relation.ReflTransGen fun outer inner => (catalog.schema outer).Mentions inner

namespace Reader

variable {α β σ : Type} {fields : String → Prop}

/-! ## Reads that tell missing fields -/

/-- A read that tells no field as missing but some. -/
def Misses (fields : String → Prop) (read : ReaderM α) : Prop :=
  ∀ reader field after, read reader = .error (.missingRequiredField field) after → fields field

theorem misses_pure (value : α) : Misses fields (Pure.pure value) := by
  intro reader field after hread
  cases hread

theorem misses_throw {error : DecodeError} (herror : ∀ field, error ≠ .missingRequiredField field) :
    Misses fields (throw error : ReaderM α) := by
  intro reader field after hthrow
  cases hthrow
  exact absurd rfl (herror field)

theorem Misses.bind {read : ReaderM α} {next : α → ReaderM β} (hread : Misses fields read)
    (hnext : ∀ value, Misses fields (next value)) : Misses fields (read >>= next) := by
  intro reader field after hboth
  rcases error_of_bind hboth with hfirst | ⟨value, middle, -, hsecond⟩
  · exact hread reader field after hfirst
  · exact hnext value middle field after hsecond

theorem misses_readVarint64 : Misses fields readVarint64 := by
  intro reader field after hread
  rw [readVarint64, Varint.decode] at hread
  split at hread
  · cases hread
  next error hdecode =>
    cases hread
    split at hdecode
    · cases hdecode
    · split at hdecode <;> cases hdecode

theorem misses_readExactly (count : Nat) : Misses fields (readExactly count) := by
  intro reader field after hread
  rw [readExactly] at hread
  split at hread <;> cases hread

theorem misses_skipExactly (count : Nat) : Misses fields (skipExactly count) := by
  intro reader field after hread
  rw [skipExactly] at hread
  split at hread <;> cases hread

theorem misses_within {body : ReaderM α} (length : Nat) (hbody : Misses fields body) :
    Misses fields (within length body) := by
  have hpush : Misses fields (pushLimit length) := by
    intro reader field after hread
    rw [pushLimit] at hread
    split at hread <;> cases hread
  have hpop : Misses fields popLimit := by
    intro reader field after hread
    cases hread
  exact hpush.bind fun _ => hbody.bind fun value => hpop.bind fun _ => misses_pure value

theorem misses_readMessage {body : ReaderM α} (hbody : Misses fields body) :
    Misses fields (readMessage body) := by
  have hdeeper : Misses fields (oneDeeper body) := by
    intro reader field after hread
    rw [oneDeeper] at hread
    split at hread
    · cases hread
    next error last hinner =>
      cases hread
      exact hbody _ field last hinner
  rw [readMessage_eq]
  refine Misses.bind (misses_readVarint64.bind fun _ => misses_pure _) fun length reader => ?_
  rw [readMessageOf]
  split
  · intro field after hread
    cases hread
  · refine ((misses_within length hdeeper).bind fun message => ?_) reader
    intro last field after hrestore
    cases hrestore

theorem misses_readTag : Misses fields readTag := by
  have haccept : ∀ raw, Misses fields (acceptTag raw) := by
    intro raw reader field after hread
    rw [acceptTag] at hread
    split at hread
    · cases hread
    · cases hsplit : Tag.split raw.toUInt32 with
      | ok key =>
          rw [hsplit] at hread
          cases hread
      | error error =>
          rw [hsplit] at hread
          cases hread
          exact absurd rfl ((split_error hsplit).2 field)
  intro reader field after hread
  by_cases hend : reader.limit ≤ reader.position
  · rw [readTag_past_end hend] at hread
    cases hread
  · rw [readTag_before_end (not_le.mp hend)] at hread
    exact (misses_readVarint64.bind haccept) reader field after hread

theorem misses_readToLimit {record : UInt32 → σ → ReaderM σ}
    (hrecord : ∀ tag state, Misses fields (record tag state)) (state : σ) :
    Misses fields (readToLimit record state) := by
  have hrecords : ∀ fuel state, Misses fields (readRecords record fuel state) := by
    intro fuel
    induction fuel with
    | zero => exact misses_pure
    | succ fuel ih =>
        intro state
        refine misses_readTag.bind fun tag => ?_
        split
        · exact misses_pure state
        · exact (hrecord tag state).bind ih
  exact fun reader => hrecords (reader.remaining + 1) state reader

theorem misses_readElements {body : ReaderM α} (hbody : Misses fields body) :
    Misses fields (readElements body) := by
  have hrun : ∀ fuel read reader field after,
      (readRun body fuel read reader).result = .error (.missingRequiredField field) after →
        fields field := by
    intro fuel
    induction fuel with
    | zero => nofun
    | succ fuel ih =>
        intro read reader field after hread
        rw [readRun] at hread
        split at hread
        · cases hfirst : body reader with
          | ok value middle =>
              rw [hfirst] at hread
              exact ih _ _ field after hread
          | error error middle =>
              rw [hfirst] at hread
              cases hread
              exact hbody reader field _ hfirst
        · cases hread
  exact fun reader => hrun _ [] reader

/-- What is read around nested messages tells no field as missing that the bodies of the types
mentioned do not. -/
theorem Modular.misses {mentioned : String → Prop} {read : (String → ReaderM Message) → ReaderM α}
    (hread : Modular mentioned read) {body : String → ReaderM Message}
    (hbody : ∀ name, mentioned name → Misses fields (body name)) : Misses fields (read body) := by
  induction hread with
  | pure value => exact misses_pure value
  | fail error _ hpresent => exact misses_throw hpresent
  | bind _ _ ihread ihnext => exact ihread.bind ihnext
  | varint => exact misses_readVarint64
  | exactly count => exact misses_readExactly count
  | skip count => exact misses_skipExactly count
  | message name hname => exact misses_readMessage (hbody name hname)
  | records length _ state ih => exact misses_within length (misses_readToLimit ih state)
  | elements length _ _ ih => exact misses_within length (misses_readElements ih)
  | byTag read _ ih => exact fun reader => ih reader.lastTag reader

/-! ## Messages -/

/-- A body tells an entry of its own that is required, or what a nested body tells. -/
theorem misses_readBodyOf (catalog : Catalog) (schema : MessageSchema)
    {body : String → ReaderM Message}
    (hbody : ∀ name, schema.Mentions name → Misses fields (body name))
    (hown : ∀ field, schema.descriptor.Requires field → fields field) :
    Misses fields (schema.readBody catalog body) := by
  refine Misses.bind (misses_readToLimit (fun tag gathered =>
    (modular_readRecord catalog schema tag gathered).misses hbody) _) fun gathered => ?_
  cases hfinish : finishEntries catalog schema.entries gathered.slots with
  | ok contents => exact misses_pure _
  | error error =>
      obtain ⟨entry, hentry, rfl⟩ := finishEntries_error hfinish
      obtain ⟨hmember, hrequired⟩ := List.mem_filter.mp hentry
      intro reader field after hthrow
      cases hthrow
      refine hown _ ⟨entry.descriptor schema.dialect, List.mem_map_of_mem hmember, ?_, ?_⟩
      · rwa [Entry.isRequired_descriptor]
      · exact Entry.name_descriptor schema.dialect entry

/-- The field that a body tells as missing is required by its message type or by a type whose
messages may lie in it. -/
theorem misses_readBody (catalog : Catalog) (name : String) :
    Misses (fun field => ∃ inner, catalog.Holds name inner ∧
      (catalog.schema inner).descriptor.Requires field) (catalog.readBody name) := by
  have hlevels : ∀ levels name, Misses (fun field => ∃ inner, catalog.Holds name inner ∧
      (catalog.schema inner).descriptor.Requires field) (catalog.readBodyWithin levels name) := by
    intro levels
    induction levels with
    | zero =>
        exact fun name => misses_readBodyOf catalog _ (fun _ _ => nofun) fun field hfield =>
          ⟨name, .refl, hfield⟩
    | succ levels ih =>
        intro name
        refine misses_readBodyOf catalog _ (fun inner hinner reader field after hread => ?_)
          fun field hfield => ⟨name, .refl, hfield⟩
        obtain ⟨innermost, hholds, hfield⟩ := ih inner reader field after hread
        exact ⟨innermost, hholds.head hinner, hfield⟩
  exact fun reader => hlevels (reader.config.recursionLimit - reader.depth) name reader

end Reader

end ProtoWire
