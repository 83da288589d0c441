import ProtoWire.Proofs.Conformance

/-! # The order of maps

A map that is read holds its entries in the order of the keys, the last value for each. Reading a
map again that was written in this order changes nothing, and a map written in any other order holds
the same entries afterwards.
-/

namespace ProtoWire

/-! ## Keys -/

theorem Scalar.precedes_asymm {a b : Scalar} (h : a.precedes b = true) :
    b.precedes a = false ∧ b ≠ a := by
  cases a <;> cases b <;>
    simp only [precedes, decide_eq_true_eq, Bool.and_eq_true, Bool.not_eq_true',
      Bool.false_eq_true] at h ⊢ <;> grind

theorem Scalar.precedes_trans {a b c : Scalar} (h : a.precedes b = true)
    (h' : b.precedes c = true) : a.precedes c = true := by
  cases a <;> cases b <;> simp only [precedes, Bool.false_eq_true] at h <;>
    cases c <;> simp only [precedes, Bool.false_eq_true, decide_eq_true_eq] at h h' ⊢ <;> grind

/-- Of two keys of one type, one comes first. -/
theorem Scalar.precedes_total {a b : Scalar} (htype : a.type = b.type)
    (hkey : a.type.isMapKey = true) (hne : a ≠ b) (h : a.precedes b = false) :
    b.precedes a = true := by
  cases a <;> cases b <;>
    simp only [type, reduceCtorEq, ScalarType.isMapKey, Bool.false_eq_true] at htype hkey
  case bool.bool a b =>
    cases a <;> cases b <;> simp [precedes] at h hne ⊢
  all_goals
    simp only [precedes, decide_eq_true_eq, decide_eq_false_iff_not] at h ⊢
    grind

/-! ## Arrangements -/

namespace MapOrder.Arranges

variable {entries : List (Scalar × Value)}

theorem map {order : MapOrder}
    (horder : order.Arranges entries) (change : Value → Value) :
    order.Arranges (entries.map fun entry => (entry.1, change entry.2)) := by
  cases order with
  | byKey => exact List.pairwise_map.mpr horder
  | unspecified =>
      have hkeys : (entries.map fun entry => (entry.1, change entry.2)).map Prod.fst =
          entries.map Prod.fst := by
        rw [List.map_map]
        rfl
      change ((entries.map fun entry => (entry.1, change entry.2)).map Prod.fst).Nodup
      rw [hkeys]
      exact horder

/-- In the order of the keys every key stands once. -/
theorem of_byKey (hsorted : MapOrder.byKey.Arranges entries) (order : MapOrder) :
    order.Arranges entries := by
  cases order with
  | byKey => exact hsorted
  | unspecified =>
      exact List.pairwise_map.mpr (hsorted.imp fun h => (Scalar.precedes_asymm h).2.symm)

end MapOrder.Arranges

namespace Content.Conforms

variable {catalog : Catalog} {holds : MessageSchema → Message → Prop} {name : String}
  {number : UInt32} {change : Value → Value}

/-- A repeated field stays one when its values are changed into values of the type. -/
theorem repeated_map {element : ValueType} {packed : Option Bool} {values : List Value}
    (hvalues : ∀ value ∈ values, (change value).Conforms catalog holds element) :
    Content.Conforms catalog holds (.repeated name number element packed)
      (.repeated (values.map change)) := by
  refine .repeated name number element packed _ fun changed hchanged => ?_
  obtain ⟨value, hvalue, rfl⟩ := List.mem_map.mp hchanged
  exact hvalues value hvalue

/-- A map stays one when its values are changed into values of the type. -/
theorem mapping_map {key : ScalarType} {type : ValueType} {order : MapOrder}
    {entries : List (Scalar × Value)} (hkeys : ∀ entry ∈ entries, entry.1.type = key)
    (horder : order.Arranges entries)
    (hvalues : ∀ entry ∈ entries, (change entry.2).Conforms catalog holds type) :
    Content.Conforms catalog holds (.map name number key type order)
      (.mapping (entries.map fun entry => (entry.1, change entry.2))) := by
  refine .mapping name number key type order _ ?_ (horder.map change) ?_
  · intro changed hchanged
    obtain ⟨entry, hentry, rfl⟩ := List.mem_map.mp hchanged
    exact hkeys entry hentry
  · intro changed hchanged
    obtain ⟨entry, hentry, rfl⟩ := List.mem_map.mp hchanged
    exact hvalues entry hentry

end Content.Conforms

/-! ## Insertion -/

/-- The entries of a map in the order of keys, the last one for each key. -/
def sortEntries (entries : List (Scalar × Value)) : List (Scalar × Value) :=
  entries.foldl (fun held entry => insertEntry entry.1 entry.2 held) []

theorem mem_insertEntry {key : Scalar} {value : Value} {entries : List (Scalar × Value)}
    {entry : Scalar × Value} (hentry : entry ∈ insertEntry key value entries) :
    entry = (key, value) ∨ entry ∈ entries := by
  induction entries with
  | nil => exact .inl (List.mem_singleton.mp hentry)
  | cons other entries ih =>
      rw [insertEntry] at hentry
      split at hentry
      next =>
        rcases List.mem_cons.mp hentry with hnew | hold
        · exact .inl hnew
        · exact .inr (List.mem_cons_of_mem other hold)
      next =>
        split at hentry
        next => exact List.mem_cons.mp hentry
        next =>
          rcases List.mem_cons.mp hentry with hfirst | hrest
          · exact .inr (hfirst ▸ List.mem_cons_self)
          · exact (ih hrest).imp_right (List.mem_cons_of_mem other)

/-- Entries in the order of the keys stay so. -/
theorem insertEntry_byKey {key : Scalar} {entries : List (Scalar × Value)}
    (hkey : key.type.isMapKey = true) (hkeys : ∀ entry ∈ entries, entry.1.type = key.type)
    (hsorted : MapOrder.byKey.Arranges entries) (value : Value) :
    MapOrder.byKey.Arranges (insertEntry key value entries) := by
  induction entries with
  | nil => exact List.pairwise_singleton _ _
  | cons other entries ih =>
      obtain ⟨hfirst, hrest⟩ := List.pairwise_cons.mp hsorted
      have hkeys' := fun entry hentry => hkeys entry (List.mem_cons_of_mem other hentry)
      rw [insertEntry]
      split
      next hsame =>
        refine List.pairwise_cons.mpr ⟨fun entry hentry => ?_, hrest⟩
        rw [hsame]
        exact hfirst entry hentry
      next hne =>
        split
        next hbefore =>
          refine List.pairwise_cons.mpr ⟨fun entry hentry => ?_, hsorted⟩
          rcases List.mem_cons.mp hentry with rfl | hentry
          · exact hbefore
          · exact Scalar.precedes_trans hbefore (hfirst entry hentry)
        next hnot =>
          have hafter : other.1.precedes key = true :=
            Scalar.precedes_total (hkeys other List.mem_cons_self).symm hkey hne
              (Bool.eq_false_iff.mpr hnot)
          refine List.pairwise_cons.mpr ⟨fun entry hentry => ?_, ih hkeys' hrest⟩
          rcases mem_insertEntry hentry with rfl | hentry
          · exact hafter
          · exact hfirst entry hentry

theorem insertEntry_of_precedes {key : Scalar} {entries : List (Scalar × Value)}
    (hlast : ∀ entry ∈ entries, entry.1.precedes key = true) (value : Value) :
    insertEntry key value entries = entries ++ [(key, value)] := by
  induction entries with
  | nil => rfl
  | cons entry entries ih =>
      obtain ⟨hback, hne⟩ := Scalar.precedes_asymm (hlast entry List.mem_cons_self)
      rw [insertEntry, if_neg hne, if_neg (Bool.eq_false_iff.mp hback),
        ih fun other hother => hlast other (List.mem_cons_of_mem entry hother)]
      rfl

/-- A map in the order of its keys stays as it is. -/
theorem sortEntries_of_byKey {entries : List (Scalar × Value)}
    (horder : MapOrder.byKey.Arranges entries) : sortEntries entries = entries := by
  -- Every entry goes behind those held already; the induction is on those to come.
  have hfold : ∀ held rest : List (Scalar × Value),
      (held ++ rest).Pairwise (fun a b => a.1.precedes b.1 = true) →
      rest.foldl (fun held entry => insertEntry entry.1 entry.2 held) held = held ++ rest := by
    intro held rest
    induction rest generalizing held with
    | nil =>
        intro _
        rw [List.append_nil]
        rfl
    | cons entry rest ih =>
        intro hpairs
        have hlast : ∀ other ∈ held, other.1.precedes entry.1 = true := fun other hother =>
          (List.pairwise_append.mp hpairs).2.2 other hother entry List.mem_cons_self
        rw [List.foldl_cons, insertEntry_of_precedes hlast, ih _ (by simpa using hpairs)]
        simp
  exact hfold [] entries horder

theorem insertEntry_perm {key : Scalar} {entries : List (Scalar × Value)}
    (hkey : key ∉ entries.map Prod.fst) (value : Value) :
    (insertEntry key value entries).Perm ((key, value) :: entries) := by
  induction entries with
  | nil => exact List.Perm.refl _
  | cons entry entries ih =>
      rw [List.map_cons, List.mem_cons, not_or] at hkey
      rw [insertEntry, if_neg hkey.1]
      split
      · exact List.Perm.refl _
      · exact ((ih hkey.2).cons entry).trans (List.Perm.swap _ _ _)

/-- A map in any order holds the same entries when they are sorted. -/
theorem sortEntries_perm {entries : List (Scalar × Value)}
    (horder : MapOrder.unspecified.Arranges entries) : (sortEntries entries).Perm entries := by
  have hfold : ∀ held rest : List (Scalar × Value), ((held ++ rest).map Prod.fst).Nodup →
      (rest.foldl (fun held entry => insertEntry entry.1 entry.2 held) held).Perm (held ++ rest) := by
    intro held rest
    induction rest generalizing held with
    | nil =>
        intro _
        rw [List.append_nil]
        exact List.Perm.refl _
    -- A new key only moves to its place, which is a permutation.
    | cons entry rest ih =>
        intro hnodup
        have hmove : (held ++ entry :: rest).Perm (entry :: (held ++ rest)) := List.perm_middle
        have hnodup' := (hmove.map Prod.fst).nodup_iff.mp hnodup
        rw [List.map_cons, List.nodup_cons] at hnodup'
        have hkey : entry.1 ∉ held.map Prod.fst := fun hmem => hnodup'.1 (by simp [hmem])
        have hinsert := insertEntry_perm hkey entry.2
        have hnext : ((insertEntry entry.1 entry.2 held ++ rest).map Prod.fst).Nodup := by
          refine (((hinsert.append_right rest).map Prod.fst).nodup_iff).mpr ?_
          exact List.nodup_cons.mpr hnodup'
        exact ((ih _ hnext).trans (hinsert.append_right rest)).trans hmove.symm
  exact hfold [] entries horder

theorem mem_sortEntries {entries : List (Scalar × Value)} {entry : Scalar × Value}
    (hentry : entry ∈ sortEntries entries) : entry ∈ entries := by
  have hfold : ∀ held rest : List (Scalar × Value),
      entry ∈ rest.foldl (fun held entry => insertEntry entry.1 entry.2 held) held →
        entry ∈ held ∨ entry ∈ rest := by
    intro held rest
    induction rest generalizing held with
    | nil => exact fun hmem => .inl hmem
    | cons other rest ih =>
        intro hmem
        rcases ih _ hmem with hheld | hrest
        · rcases mem_insertEntry hheld with rfl | hheld
          · exact .inr List.mem_cons_self
          · exact .inl hheld
        · exact .inr (List.mem_cons_of_mem other hrest)
  rcases hfold [] entries hentry with hnone | hmem
  · exact (List.not_mem_nil hnone).elim
  · exact hmem

theorem sortEntries_byKey {key : ScalarType} {entries : List (Scalar × Value)}
    (hkey : key.isMapKey = true) (hkeys : ∀ entry ∈ entries, entry.1.type = key) :
    MapOrder.byKey.Arranges (sortEntries entries) := by
  have hfold : ∀ held rest : List (Scalar × Value), (∀ entry ∈ held, entry.1.type = key) →
      (∀ entry ∈ rest, entry.1.type = key) → MapOrder.byKey.Arranges held →
        MapOrder.byKey.Arranges
          (rest.foldl (fun held entry => insertEntry entry.1 entry.2 held) held) := by
    intro held rest
    induction rest generalizing held with
    | nil => exact fun _ _ hsorted => hsorted
    | cons entry rest ih =>
        intro hheld hrest hsorted
        have hentry := hrest entry List.mem_cons_self
        refine ih _ (fun other hother => ?_)
          (fun other hother => hrest other (List.mem_cons_of_mem entry hother)) ?_
        · rcases mem_insertEntry hother with rfl | hother
          · exact hentry
          · exact hheld other hother
        · refine insertEntry_byKey (by rw [hentry]; exact hkey) (fun other hother => ?_) hsorted _
          rw [hheld other hother, hentry]
  exact hfold [] entries (fun _ hentry => (List.not_mem_nil hentry).elim) hkeys .nil

end ProtoWire
