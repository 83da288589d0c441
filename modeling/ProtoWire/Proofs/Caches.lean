import ProtoWire.Proofs.Sizes

/-! # The caches in a message

A property of caches holds of every message in a message exactly if it holds of every cache in it.
Working out sizes lets caches remember sizes of the running pass and changes none outside of a pass.
-/

namespace ProtoWire

mutual

/-- The caches in a value. -/
def Value.caches : Value → List SizeCache
  | .message message => message.caches
  | .present value => value.caches
  | .reference _ wire => wire.caches
  | .scalar _ | .enumeration _ | .absent => []

/-- The cache of a message and those of all messages in it. -/
def Message.caches : Message → List SizeCache
  | .mk contents _ cache => cache :: contentsCaches contents

/-- The caches in contents. -/
def contentsCaches : List Content → List SizeCache
  | [] => []
  | content :: contents => content.caches ++ contentsCaches contents

/-- The caches in a content. -/
def Content.caches : Content → List SizeCache
  | .singular value => value.caches
  | .repeated values => valuesCaches values
  | .mapping entries => entriesCaches entries
  | .unset => []
  | .chosen _ value => value.caches

/-- The caches in values. -/
def valuesCaches : List Value → List SizeCache
  | [] => []
  | value :: values => value.caches ++ valuesCaches values

/-- The caches in the entries of a map. -/
def entriesCaches : List (Scalar × Value) → List SizeCache
  | [] => []
  | (_, value) :: entries => value.caches ++ entriesCaches entries

end

section Caches

variable {catalog : Catalog} {holds : MessageSchema → Message → Prop}

theorem valuesCaches_eq (values : List Value) :
    valuesCaches values = values.flatMap Value.caches := by
  induction values with
  | nil => rfl
  | cons value values ih => rw [valuesCaches, ih, List.flatMap_cons]

theorem entriesCaches_eq (entries : List (Scalar × Value)) :
    entriesCaches entries = entries.flatMap fun entry => entry.2.caches := by
  induction entries with
  | nil => rfl
  | cons entry entries ih => rw [entriesCaches, ih, List.flatMap_cons]

/-- What all messages in a message have in their caches is what all caches in it have. -/
theorem inherits_caches {keeps : SizeCache → Prop} :
    Inherits catalog holds
      (fun type value => value.Conforms catalog (fun _ message => keeps message.cache) type ↔
        ∀ cache ∈ value.caches, keeps cache)
      (fun schema message =>
        message.Conforms catalog (fun _ message => keeps message.cache) schema ↔
          ∀ cache ∈ message.caches, keeps cache)
      (fun entries contents =>
        ContentsConform catalog (fun _ message => keeps message.cache) entries contents ↔
          ∀ cache ∈ contentsCaches contents, keeps cache)
      (fun entry content =>
        content.Conforms catalog (fun _ message => keeps message.cache) entry ↔
          ∀ cache ∈ content.caches, keeps cache) where
  scalar type scalar htype := ⟨fun _ => nofun, fun _ => .scalar type scalar htype⟩
  enumeration schema value := ⟨fun _ => nofun, fun _ => .enumeration schema value⟩
  message name message hmessage := by
    refine ⟨fun hvalue => ?_, fun hkeeps => .message name message (hmessage.mpr hkeeps)⟩
    cases hvalue with
    | message _ _ hconforms => exact hmessage.mp hconforms
  absent inner := ⟨fun _ => nofun, fun _ => .absent inner⟩
  present inner value hvalue := by
    refine ⟨fun hpresent => ?_, fun hkeeps => .present inner value (hvalue.mpr hkeeps)⟩
    cases hpresent with
    | present _ _ hconforms => exact hvalue.mp hconforms
  reference converter wire held value hvalue := by
    refine ⟨fun hreference => ?_, fun hkeeps =>
      .reference converter wire held value (hvalue.mpr hkeeps)⟩
    cases hreference with
    | reference _ _ _ _ hconforms => exact hvalue.mp hconforms
  body schema contents unknown cache _ _ hcontents := by
    rw [Message.caches, List.forall_mem_cons]
    refine ⟨fun hmessage => ?_, fun hkeeps =>
      .mk schema contents unknown cache hkeeps.1 (hcontents.mpr hkeeps.2)⟩
    cases hmessage with
    | mk _ _ _ _ hcache hconforms => exact ⟨hcache, hcontents.mp hconforms⟩
  nil := ⟨fun _ => nofun, fun _ => .nil⟩
  cons entry content entries contents hcontent hcontents := by
    rw [contentsCaches, List.forall_mem_append]
    refine ⟨fun hall => ?_, fun hkeeps =>
      .cons entry content entries contents (hcontent.mpr hkeeps.1) (hcontents.mpr hkeeps.2)⟩
    cases hall with
    | cons _ _ _ _ hfirst hrest => exact ⟨hcontent.mp hfirst, hcontents.mp hrest⟩
  singular name number type optional nonNull value _ hvalue := by
    refine ⟨fun hsingular => ?_, fun hkeeps =>
      .singular name number type optional nonNull value (hvalue.mpr hkeeps)⟩
    cases hsingular with
    | singular _ _ _ _ _ _ hconforms => exact hvalue.mp hconforms
  repeated name number element packed values hvalues := by
    rw [Content.caches, valuesCaches_eq, List.forall_mem_flatMap]
    refine ⟨fun hrepeated => ?_, fun hkeeps => .repeated name number element packed values
      fun value hvalue => (hvalues value hvalue).mpr (hkeeps value hvalue)⟩
    cases hrepeated with
    | repeated _ _ _ _ _ hconforms =>
        exact fun value hvalue => (hvalues value hvalue).mp (hconforms value hvalue)
  mapping name number key type order entries hkeys horder hvalues := by
    rw [Content.caches, entriesCaches_eq, List.forall_mem_flatMap]
    refine ⟨fun hmapping => ?_, fun hkeeps =>
      .mapping name number key type order entries hkeys horder fun entry hentry =>
        (hvalues entry hentry).mpr (hkeeps entry hentry)⟩
    cases hmapping with
    | mapping _ _ _ _ _ _ _ _ hconforms =>
        exact fun entry hentry => (hvalues entry hentry).mp (hconforms entry hentry)
  unset name schema := ⟨fun _ => nofun, fun _ => .unset name schema⟩
  chosen name schema required place member value hmember hvalue := by
    refine ⟨fun hchosen => ?_, fun hkeeps =>
      .chosen name schema required place member value hmember (hvalue.mpr hkeeps)⟩
    cases hchosen with
    | chosen _ _ _ _ member' _ hmember' hconforms =>
        rw [hmember] at hmember'
        cases hmember'
        exact hvalue.mp hconforms

theorem Message.Conforms.caches_iff {schema : MessageSchema} {message : Message}
    (hmessage : message.Conforms catalog holds schema) (keeps : SizeCache → Prop) :
    message.Conforms catalog (fun _ message => keeps message.cache) schema ↔
      ∀ cache ∈ message.caches, keeps cache := inherits_caches.of_message hmessage

end Caches

/-! ## Working out sizes -/

/-- Each cache stays as it is or remembers a size in a pass. -/
def CachesAdvance (pass : Pass) (before after : List SizeCache) : Prop :=
  List.Forall₂ (fun held kept => kept = held ∨ ∃ size, kept = held.remember pass size) before after

namespace CachesAdvance

variable {catalog : Catalog} {pass : Pass}

theorem refl (caches : List SizeCache) : CachesAdvance pass caches caches :=
  List.forall₂_same.mpr fun _ _ => .inl rfl

theorem append {before after before' after' : List SizeCache}
    (hfirst : CachesAdvance pass before after) (hrest : CachesAdvance pass before' after') :
    CachesAdvance pass (before ++ before') (after ++ after') := List.rel_append hfirst hrest

theorem flatMap {α : Type} {list : List α} {before after : α → List SizeCache}
    (hlist : ∀ member ∈ list, CachesAdvance pass (before member) (after member)) :
    CachesAdvance pass (list.flatMap before) (list.flatMap after) := by
  induction list with
  | nil => exact .nil
  | cons member list ih =>
      exact (hlist member List.mem_cons_self).append
        (ih fun other hother => hlist other (List.mem_cons_of_mem member hother))

/-- Working out sizes lets caches remember sizes in the running pass, and does nothing else to them.
-/
theorem inherits_settle {holds : MessageSchema → Message → Prop} :
    Inherits catalog holds
      (fun type value => CachesAdvance pass value.caches (value.settle catalog pass type).caches)
      (fun schema message =>
        CachesAdvance pass message.caches (message.settle catalog pass schema).caches)
      (fun entries contents => CachesAdvance pass (contentsCaches contents)
        (contentsCaches (settleContents catalog pass entries contents)))
      (fun entry content =>
        CachesAdvance pass content.caches (content.settle catalog pass entry).caches) where
  scalar type scalar _ := .nil
  enumeration schema value := .nil
  message name message hmessage := hmessage
  absent inner := .nil
  present inner value hvalue := hvalue
  reference converter wire held value hvalue := hvalue
  body schema contents unknown cache _ _ hcontents := by
    rw [Message.settle]
    split
    next => exact refl _
    next =>
      refine .cons ?_ hcontents
      cases schema.cachesSize with
      | true => exact .inr ⟨_, rfl⟩
      | false => exact .inl rfl
  nil := .nil
  cons entry content entries contents hcontent hcontents := hcontent.append hcontents
  singular name number type optional nonNull value _ hvalue := hvalue
  repeated name number element packed values hvalues := by
    rw [Content.settle, Content.caches, Content.caches, settleValues_eq, valuesCaches_eq,
      valuesCaches_eq, List.flatMap_map]
    exact flatMap hvalues
  mapping name number key type order entries _ _ hvalues := by
    rw [Content.settle, Content.caches, Content.caches, settleEntries_eq, entriesCaches_eq,
      entriesCaches_eq, List.flatMap_map]
    exact flatMap hvalues
  unset name schema := .nil
  chosen name schema required place member value hmember hvalue := by
    rw [Content.settle_chosen hmember]
    exact hvalue

/-- Outside of a pass all caches stay. -/
theorem eq_of_none {before after : List SizeCache} (hcaches : CachesAdvance none before after) :
    after = before := by
  have hsame : List.Forall₂ (fun held kept : SizeCache => held = kept) before after :=
    hcaches.imp fun held kept hkept => by
      rcases hkept with rfl | ⟨size, rfl⟩ <;> rfl
  exact (List.forall₂_eq_eq_eq ▸ hsame : before = after).symm

/-- What remembering a size keeps of a cache is true of all caches afterwards. -/
theorem forall_after {keeps : SizeCache → Prop}
    (hkeeps : ∀ cache size, keeps cache → keeps (cache.remember pass size))
    {before after : List SizeCache} (hcaches : CachesAdvance pass before after)
    (hbefore : ∀ cache ∈ before, keeps cache) : ∀ cache ∈ after, keeps cache := by
  induction hcaches with
  | nil => exact hbefore
  | @cons held kept before after hkept _ ih =>
      obtain ⟨hheld, hbefore⟩ := List.forall_mem_cons.mp hbefore
      refine List.forall_mem_cons.mpr ⟨?_, ih hbefore⟩
      rcases hkept with rfl | ⟨size, rfl⟩
      · exact hheld
      · exact hkeeps held size hheld

/-- Caches of passes up to the running one stay so. -/
theorem stored_lt {before after : List SizeCache} (hcaches : CachesAdvance pass before after)
    {next : Nat} (hpass : ∀ current, pass = some current → current < next)
    (hbefore : ∀ cache ∈ before, ∀ stored, cache.stored = some stored → stored.pass < next) :
    ∀ cache ∈ after, ∀ stored, cache.stored = some stored → stored.pass < next := by
  refine hcaches.forall_after (fun cache size hcache stored hstored => ?_) hbefore
  cases pass with
  | none => exact hcache stored hstored
  | some current =>
      cases hstored
      exact hpass current rfl

/-- Caches that hold nothing of another pass stay so. -/
theorem unused {before after : List SizeCache} (hcaches : CachesAdvance pass before after)
    {other : Nat} (hother : pass ≠ some other)
    (hbefore : ∀ cache ∈ before, cache.find? (some other) = none) :
    ∀ cache ∈ after, cache.find? (some other) = none := by
  refine hcaches.forall_after (fun cache size hcache => ?_) hbefore
  cases pass with
  | none => exact hcache
  | some current => exact if_neg fun hsame => hother (congrArg some hsame)

end CachesAdvance

end ProtoWire
