import ProtoWire.Proofs.Fields
import ProtoWire.Proofs.Termination

/-! # Captured records are replayed

Captured records are written one after the other and read back as they were captured, in their order
and with one round of reading for each. Taken by their numbers, the records of a set are all there,
every one under its own number and under no other, and the records of one number keep their order.
-/

namespace ProtoWire

/-- The payloads of the captured records are short enough for their lengths to be written. -/
def UnknownFieldSet.Measured (set : UnknownFieldSet) : Prop :=
  ∀ field ∈ set.fields, ∀ payload, field.value = .lengthDelimited payload →
    payload.length < addressSpace

namespace Reader

variable {levels : Nat} {reader after : Reader} {set captured : UnknownFieldSet}

/-- Captures the record announced by a tag behind those that were captured before. -/
def captureRecord (tag : UInt32) (set : UnknownFieldSet) : ReaderM UnknownFieldSet :=
  return set.add (← readUnknown tag)

/-! ## Numbers of captured records -/

theorem nextRecord_numbered
    (hround : nextRecord captureRecord set reader = .ok (some captured) after)
    (hset : set.Numbered) : captured.Numbered := by
  rw [nextRecord] at hround
  obtain ⟨tag, middle, -, hround⟩ := ok_of_bind hround
  split at hround
  · cases hround
  · obtain ⟨next, last, hcapture, hnext⟩ := ok_of_bind hround
    cases hnext
    obtain ⟨field, final, hread, hadded⟩ := ok_of_bind hcapture
    cases hadded
    intro other hother
    rcases List.mem_append.mp hother with hother | hother
    · exact hset other hother
    · rw [List.mem_singleton.mp hother]
      exact (Tag.split_eq_ok_iff.mp (split_of_readUnknown hread)).1

/-- However many records are captured, from whatever bytes, their numbers are in range. -/
theorem numbered_of_loop {rounds : Nat}
    (hloop : Loop (nextRecord captureRecord) rounds set reader (.ok captured after))
    (hset : set.Numbered) : captured.Numbered := by
  generalize hresult : EStateM.Result.ok captured after = result at hloop
  induction hloop with
  | done =>
      cases hresult
      exact hset
  | failed => cases hresult
  | again rounds set next reader taken tag result hround _ _ _ ih =>
      exact ih (nextRecord_numbered hround hset) hresult

/-! ## Reading back -/

/-- A record that was written is captured by one round, which takes its bytes. -/
theorem nextRecord_encode (hsound : Sound levels reader) {field : UnknownField}
    (hnumber : Tag.inRange field.number = true) (hframes : field.value.Frames field.value.encode)
    {rest : Bytes} (hwindow : reader.window = field.encode ++ rest) (set : UnknownFieldSet) :
    ∃ tag, nextRecord captureRecord set reader =
      .ok (some (set.add field)) (reader.moved field.encode.length tag) := by
  have hcut : UnknownField.cut? reader.window = some (field, rest) := by
    rw [hwindow]
    exact UnknownField.cut_encode_of_frames hnumber hframes rest
  have hsplit : Tag.split field.tag = .ok ⟨field.number, field.value.wireType⟩ :=
    Tag.split_eq_ok_iff.mpr ⟨hnumber, rfl⟩
  obtain ⟨middle, tag, htag, hread⟩ :=
    takes_record hsound hwindow hcut (follows_readUnknown_as hsplit) rfl
  have hcapture : captureRecord field.tag set middle =
      .ok (set.add field) (reader.moved field.encode.length tag) := bind_ok hread _
  have hzero : field.tag ≠ 0 := Tag.make_ne_zero hnumber _
  refine ⟨tag, ?_⟩
  rw [nextRecord, bind_ok htag, if_neg hzero, bind_ok hcapture]
  rfl

/-- Records that were written are captured in as many rounds as there are of them, up to the end. -/
theorem loop_encode (hsound : Sound levels reader) {fields : List UnknownField}
    (hnumbered : UnknownFieldSet.Numbered ⟨fields⟩) (hmeasured : UnknownFieldSet.Measured ⟨fields⟩)
    (hwindow : reader.window = UnknownField.encodeAll fields) (set : UnknownFieldSet) :
    Loop (nextRecord captureRecord) fields.length set reader
      (.ok ⟨set.fields ++ fields⟩ (reader.moved (UnknownField.encodeAll fields).length 0)) := by
  induction fields generalizing set reader with
  | nil =>
      have hstays : reader.moved 0 0 = reader.past [] 0 := by
        rw [moved_eq hsound (Nat.zero_le _), hwindow]
        rfl
      rw [List.append_nil]
      refine .done set reader _ ?_
      rw [UnknownField.encodeAll_nil, List.length_nil, hstays, nextRecord,
        bind_ok (readTag_at_end hsound hwindow)]
      rfl
  | cons field fields ih =>
      rw [UnknownField.encodeAll_cons] at hwindow
      have hfirst : Tag.inRange field.number = true := hnumbered field List.mem_cons_self
      have hframes := UnknownValue.frames_encode_of_length (hmeasured field List.mem_cons_self)
      obtain ⟨tag, hround⟩ := nextRecord_encode hsound hfirst hframes hwindow set
      obtain ⟨hmiddle, hrest⟩ := stands_behind hsound hwindow tag
      have hloop := ih hmiddle
        (fun other hother => hnumbered other (List.mem_cons_of_mem field hother))
        (fun other hother => hmeasured other (List.mem_cons_of_mem field hother)) hrest
        (set.add field)
      rw [moved_moved, UnknownFieldSet.add, List.append_assoc] at hloop
      rw [UnknownField.encodeAll_cons, List.length_append]
      refine .again fields.length set (set.add field) reader field.encode.length tag _ hround
        (List.length_pos_iff.mpr field.encode_ne_nil) ?_ hloop
      rw [← length_window hsound, hwindow]
      exact (List.prefix_append _ _).length_le

end Reader

namespace UnknownFieldSet

variable {set : UnknownFieldSet} {field : UnknownField} {number : UInt32}

/-- What holds of the empty set, and stays so with every record captured, holds of all sets. -/
@[elab_as_elim]
theorem add_induction {holds : UnknownFieldSet → Prop} (empty : holds .empty)
    (add : ∀ set field, holds set → holds (set.add field)) (set : UnknownFieldSet) : holds set := by
  obtain ⟨fields⟩ := set
  induction fields using List.reverseRecOn with
  | nil => exact empty
  | append_singleton fields field ih => exact add ⟨fields⟩ field ih

/-! ## Numbers in the order of first appearance -/

/-- A record that is captured adds its number unless the number was there before. -/
theorem numbers_add (set : UnknownFieldSet) (field : UnknownField) : (set.add field).numbers =
    if field.number ∈ set.numbers then set.numbers else set.numbers ++ [field.number] := by
  simp only [numbers, add, List.foldl_append, List.foldl_cons, List.foldl_nil,
    List.contains_iff_mem]

theorem mem_numbers : number ∈ set.numbers ↔ ∃ field ∈ set.fields, field.number = number := by
  induction set using add_induction with
  | empty => simp [empty, numbers]
  | add set field ih =>
      have hfields : (∃ other ∈ (set.add field).fields, other.number = number) ↔
          number ∈ set.numbers ∨ field.number = number := by
        rw [ih]
        simp [add, or_and_right, exists_or]
      rw [hfields, numbers_add]
      split
      next hmem => exact ⟨.inl, fun h => h.elim id (· ▸ hmem)⟩
      next => simp [eq_comm]

/-- The place of the first record with a number. -/
def firstPlace (set : UnknownFieldSet) (number : UInt32) : Nat :=
  set.fields.findIdx (·.number == number)

theorem firstPlace_lt_iff : set.firstPlace number < set.length ↔ number ∈ set.numbers := by
  rw [firstPlace, length, List.findIdx_lt_length, mem_numbers]
  simp only [beq_iff_eq]

/-- A number that is there stays where it is first. -/
theorem firstPlace_add_of_mem (hmem : number ∈ set.numbers) (field : UnknownField) :
    (set.add field).firstPlace number = set.firstPlace number := by
  have hfirst := firstPlace_lt_iff.mpr hmem
  rw [firstPlace, length] at hfirst
  rw [firstPlace, add, List.findIdx_append, if_pos hfirst]
  rfl

/-- A number that is new is first where the set ended. -/
theorem firstPlace_add_of_not_mem (hnew : field.number ∉ set.numbers) :
    (set.add field).firstPlace field.number = set.length := by
  have hfirst := firstPlace_lt_iff.not.mpr hnew
  rw [firstPlace, length] at hfirst
  rw [firstPlace, add, List.findIdx_append, if_neg hfirst]
  simp [length]

theorem numbers_pairwise (set : UnknownFieldSet) :
    set.numbers.Pairwise fun a b => set.firstPlace a < set.firstPlace b := by
  induction set using add_induction with
  | empty => exact List.Pairwise.nil
  | add set field ih =>
      have hold : set.numbers.Pairwise fun a b =>
          (set.add field).firstPlace a < (set.add field).firstPlace b := by
        refine ih.imp_of_mem fun ha hb h => ?_
        rwa [firstPlace_add_of_mem ha, firstPlace_add_of_mem hb]
      rw [numbers_add]
      split
      next => exact hold
      next hnew =>
        refine List.pairwise_append.mpr ⟨hold, List.pairwise_singleton _ _, fun a ha b hb => ?_⟩
        rw [List.mem_singleton.mp hb, firstPlace_add_of_mem ha, firstPlace_add_of_not_mem hnew]
        exact firstPlace_lt_iff.mpr ha

theorem nodup_numbers (set : UnknownFieldSet) : set.numbers.Nodup :=
  set.numbers_pairwise.imp fun h heq => h.ne (congrArg set.firstPlace heq)

/-! ## Values of one number -/

/-- The places of the records with a number, in order. -/
def places (set : UnknownFieldSet) (number : UInt32) : List Nat :=
  set.fields.findIdxs (·.number == number)

theorem places_pairwise (set : UnknownFieldSet) (number : UInt32) :
    (set.places number).Pairwise (· < ·) := List.pairwise_findIdxs

theorem mem_places {place : Nat} :
    place ∈ set.places number ↔ ∃ value, set.fields[place]? = some ⟨number, value⟩ := by
  rw [places, List.mem_findIdxs_iff_exists_getElem_pos]
  simp only [List.getElem?_eq_some_iff, beq_iff_eq]
  constructor
  · rintro ⟨hplace, rfl⟩
    exact ⟨_, hplace, rfl⟩
  · rintro ⟨value, hplace, hfield⟩
    exact ⟨hplace, congrArg UnknownField.number hfield⟩

theorem places_add (set : UnknownFieldSet) (field : UnknownField) (number : UInt32) :
    (set.add field).places number =
      set.places number ++ if field.number = number then [set.length] else [] := by
  rw [places, add, List.findIdxs_append, List.findIdxs_singleton, Nat.zero_add]
  simp only [beq_iff_eq]
  rfl

theorem get_add (set : UnknownFieldSet) (field : UnknownField) (number : UInt32) :
    (set.add field).get number =
      set.get number ++ if field.number = number then [field.value] else [] := by
  rw [get, add, List.filter_append, List.map_append]
  by_cases hnumber : field.number = number
  · simp [hnumber, get]
  · simp [hnumber, get]

/-- The values of a number are those of the records at its places. -/
theorem map_places (set : UnknownFieldSet) (number : UInt32) :
    (set.places number).map (set.fields[·]?) =
      (set.get number).map fun value => some ⟨number, value⟩ := by
  induction set using add_induction with
  | empty => rfl
  | add set field ih =>
      have hold : (set.places number).map ((set.add field).fields[·]?) =
          (set.places number).map (set.fields[·]?) := by
        refine List.map_congr_left fun place hplace => ?_
        obtain ⟨value, hvalue⟩ := mem_places.mp hplace
        exact List.getElem?_append_left (List.getElem?_eq_some_iff.mp hvalue).1
      rw [places_add, get_add, List.map_append, List.map_append, hold, ih]
      congr 1
      split
      next hnumber =>
        subst hnumber
        simp [add, length]
      next => rfl

/-! ## All records under their numbers -/

theorem map_get (set : UnknownFieldSet) (number : UInt32) :
    (set.get number).map (UnknownField.mk number) = set.fields.filter (·.number == number) := by
  rw [get, List.map_map]
  refine (List.map_congr_left fun field hfield => ?_).trans (List.map_id _)
  rw [Function.comp_apply, ← beq_iff_eq.mp (List.mem_filter.mp hfield).2]
  rfl

/-- Records taken number by number are all records with these numbers, each of them once. -/
theorem flatMap_filter_perm {numbers : List UInt32} (hnodup : numbers.Nodup)
    (fields : List UnknownField) :
    (numbers.flatMap fun number => fields.filter (·.number == number)).Perm
      (fields.filter fun field => decide (field.number ∈ numbers)) := by
  induction numbers with
  | nil => simp
  | cons number numbers ih =>
      obtain ⟨hnew, hnodup⟩ := List.nodup_cons.mp hnodup
      -- Those of the first number and the others part the records with any of the numbers.
      have hparts := List.filter_append_perm (·.number == number)
        (fields.filter fun field => decide (field.number ∈ number :: numbers))
      rw [List.filter_filter, List.filter_filter] at hparts
      have hfirst : (fields.filter fun field =>
          field.number == number && decide (field.number ∈ number :: numbers)) =
            fields.filter (·.number == number) := by
        refine List.filter_congr fun field _ => ?_
        by_cases h : field.number = number <;> simp [h]
      have hothers : (fields.filter fun field =>
          !(field.number == number) && decide (field.number ∈ number :: numbers)) =
            fields.filter fun field => decide (field.number ∈ numbers) := by
        refine List.filter_congr fun field _ => ?_
        by_cases h : field.number = number <;> simp [h, hnew]
      rw [hfirst, hothers] at hparts
      rw [List.flatMap_cons]
      exact ((ih hnodup).append_left _).trans hparts

theorem flatMap_get_perm (set : UnknownFieldSet) :
    (set.numbers.flatMap fun number => (set.get number).map (UnknownField.mk number)).Perm
      set.fields := by
  simp only [map_get]
  have hall : (set.fields.filter fun field => decide (field.number ∈ set.numbers)) =
      set.fields := by
    refine List.filter_eq_self.mpr fun field hfield => ?_
    exact decide_eq_true (mem_numbers.mpr ⟨field, hfield, rfl⟩)
  have hperm := flatMap_filter_perm set.nodup_numbers set.fields
  rwa [hall] at hperm

theorem sum_length_get (set : UnknownFieldSet) :
    (set.numbers.map fun number => (set.get number).length).sum = set.length := by
  have hlength := set.flatMap_get_perm.length_eq
  rwa [List.length_flatMap, List.map_congr_left fun _ _ => List.length_map _] at hlength

/-! ## The set and its view by numbers -/

/-- What was captured has numbers in range. A set with numbers in range is written in as many bytes
as predicted, and capturing what was written, from wherever it stands, gives the set again in one
round for each record. Of every set, the numbers are those that occur, each once and in the order in
which they first appear; the values of a number are those at its places, in their order; and the
records taken number by number are all the records, each of them once. -/
theorem replay_and_view (set : UnknownFieldSet) :
    (∀ rounds reader after, Reader.Loop (Reader.nextRecord Reader.captureRecord) rounds .empty
      reader (.ok set after) → set.Numbered) ∧
    (set.Numbered → set.encode.length = set.size ∧
      (set.Measured → ∀ levels reader, Reader.Sound levels reader → reader.window = set.encode →
        ∀ rounds result,
          Reader.Loop (Reader.nextRecord Reader.captureRecord) rounds .empty reader result ↔
            rounds = set.length ∧ result = .ok set (reader.moved set.size 0))) ∧
    (set.numbers.Nodup ∧
      (∀ number, number ∈ set.numbers ↔ ∃ field ∈ set.fields, field.number = number) ∧
      set.numbers.Pairwise fun a b => set.firstPlace a < set.firstPlace b) ∧
    (∀ number, (set.places number).Pairwise (· < ·) ∧
      (∀ place, place ∈ set.places number ↔ ∃ value, set.fields[place]? = some ⟨number, value⟩) ∧
      (set.places number).map (set.fields[·]?) =
        (set.get number).map fun value => some ⟨number, value⟩) ∧
    (set.numbers.map fun number => (set.get number).length).sum = set.length ∧
    (set.numbers.flatMap fun number => (set.get number).map (UnknownField.mk number)).Perm
      set.fields := by
  refine ⟨fun rounds reader after hloop => ?_, fun hnumbered => ?_, ?_, fun number => ?_,
    set.sum_length_get, set.flatMap_get_perm⟩
  · exact Reader.numbered_of_loop hloop fun _ => nofun
  · have hsize : set.encode.length = set.size := hnumbered.size_eq.symm
    refine ⟨hsize, fun hmeasured levels reader hsound hwindow rounds result => ?_⟩
    have hloop := Reader.loop_encode hsound hnumbered hmeasured hwindow .empty
    rw [← hsize]
    constructor
    · intro hother
      exact hother.unique hloop
    · rintro ⟨rfl, rfl⟩
      exact hloop
  · exact ⟨set.nodup_numbers, fun _ => mem_numbers, set.numbers_pairwise⟩
  · exact ⟨set.places_pairwise number, fun _ => mem_places, set.map_places number⟩

/-- Five records of four kinds, two of one number with another between them, are written in 25
bytes, read back in five rounds, and seen under four numbers. -/
theorem interleaved_replayed :
    let set : UnknownFieldSet := ⟨[⟨7, .varint 300⟩, ⟨2, .fixed32 1⟩, ⟨7, .varint 1⟩,
      ⟨9, .lengthDelimited [0x78, 0x79, 0x7a]⟩, ⟨1000, .fixed64 18446744073709551615⟩]⟩
    set.encode.length = 25 ∧
      Reader.Loop (Reader.nextRecord Reader.captureRecord) 5 .empty (.ofBytes set.encode {})
        (.ok set ((Reader.ofBytes set.encode {}).moved 25 0)) ∧
      set.numbers = [7, 2, 9, 1000] ∧ set.get 7 = [.varint 300, .varint 1] := by
  intro set
  have hnumbered : set.Numbered := by
    simp [Numbered, set]
    decide
  have hmeasured : set.Measured := by
    simp [Measured, set]
    decide
  obtain ⟨hsize, hreplay⟩ := set.replay_and_view.2.1 hnumbered
  have hloop := hreplay hmeasured _ _ (Reader.sound_ofBytes set.encode {})
    (Reader.window_ofBytes set.encode {}) 5 (.ok set ((Reader.ofBytes set.encode {}).moved 25 0))
  exact ⟨hsize, hloop.mpr ⟨rfl, rfl⟩, by decide, by decide⟩

end UnknownFieldSet

end ProtoWire
