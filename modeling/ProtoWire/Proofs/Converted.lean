import ProtoWire.Converter
import ProtoWire.Proofs.Forms
import ProtoWire.Samples

/-! # Looking at converted values

Whoever looks at a reference may change the form it holds, but not what the next one sees. Every
look is answered from the wire form, which stays as it is, provided that the converter takes back
what it gave. So messages around the references stay the same as well.
-/

namespace ProtoWire

variable {W D α : Type} {converter : Converter W D}

/-! ## Converters -/

/-- A converter that takes back what it gave, in both directions. -/
structure Converter.Faithful (converter : Converter W D) : Prop where
  unwrap_wrap : ∀ wire domain, converter.wrap wire = .ok domain → converter.unwrap domain = wire
  wrap_unwrap : ∀ domain, converter.wrap (converter.unwrap domain) = .ok domain

theorem uuidConverter_faithful : uuidConverter.Faithful where
  unwrap_wrap wire domain hwrap := by
    simp only [uuidConverter] at hwrap ⊢
    split at hwrap
    · cases hwrap
      rfl
    · cases hwrap
  wrap_unwrap domain := by
    obtain ⟨octets, hsize⟩ := domain
    exact dif_pos hsize

theorem ipAddressConverter_faithful : ipAddressConverter.Faithful where
  unwrap_wrap wire domain hwrap := by
    simp only [ipAddressConverter] at hwrap ⊢
    split at hwrap
    · cases hwrap
      rfl
    · split at hwrap
      · cases hwrap
        rfl
      · cases hwrap
  wrap_unwrap domain := by
    cases domain with
    | v4 octets =>
        obtain ⟨octets, hsize⟩ := octets
        exact dif_pos hsize
    | v6 octets =>
        obtain ⟨octets, hsize⟩ := octets
        have hlong : octets.size ≠ 4 := by omega
        exact (dif_neg hlong).trans (dif_pos hsize)

/-! ## One reference -/

namespace Reference

/-- Looking at a reference is answered from its wire form, which is the same afterwards. -/
def Tells (converter : Converter W D) (body : Reference W D → Converting (α × Reference W D))
    (answer : W → α) : Prop :=
  ∀ reference count, ∃ after count',
    (body reference).run count = ((answer (reference.wireForm converter), after), count') ∧
      after.wireForm converter = reference.wireForm converter

theorem tells_withWire (converter : Converter W D) (tell : W → α) :
    Tells converter (withWire converter tell) tell := by
  intro reference count
  cases reference with
  | wire value => exact ⟨.wire value, count, rfl, rfl⟩
  | domain value => exact ⟨.wire (converter.unwrap value), _, rfl, rfl⟩

/-- The answer to whoever asks for the domain value. -/
def outcome (converter : Converter W D) (wire : W) : Except ConversionError D :=
  (converter.wrap wire).mapError fun reason => ⟨converter.name, reason⟩

theorem run_runWrap (converter : Converter W D) (value : W) (count : ConversionCount) :
    (runWrap converter value).run count =
      (outcome converter value, { count with wraps := count.wraps + 1 }) := rfl

theorem tells_wrapped (hfaithful : converter.Faithful) :
    Tells converter (wrapped converter) (outcome converter) := by
  intro reference count
  cases reference with
  | domain value =>
      refine ⟨.domain value, count, ?_, rfl⟩
      rw [outcome, wireForm, hfaithful.wrap_unwrap]
      rfl
  | wire value =>
      rw [wrapped, StateT.run_bind, run_runWrap, wireForm, outcome]
      cases hwrap : converter.wrap value with
      | ok domain =>
          exact ⟨.domain domain, _, rfl, hfaithful.unwrap_wrap value domain hwrap⟩
      | error reason => exact ⟨.wire value, _, rfl, rfl⟩

/-- A wire form that is refused was never converted. -/
theorem eq_wire_of_refused (hfaithful : converter.Faithful) {reference : Reference W D}
    {reason : String} (hrefused : converter.wrap (reference.wireForm converter) = .error reason) :
    reference = .wire (reference.wireForm converter) := by
  cases reference with
  | wire value => rfl
  | domain value =>
      rw [wireForm, hfaithful.wrap_unwrap] at hrefused
      cases hrefused

end Reference

/-! ## Named references -/

namespace References

theorem lookup_setNamed (name : String) (reference : Reference W D)
    (named : List (String × Reference W D)) (other : String) :
    (setNamed name reference named).lookup other =
      if other = name then some reference else named.lookup other := by
  induction named with
  | nil => exact lookup_cons_eq_ite (name, reference) [] other
  | cons entry named ih =>
      obtain ⟨held, kept⟩ := entry
      rw [setNamed]
      split
      next hsame =>
        subst hsame
        rw [lookup_cons_eq_ite, lookup_cons_eq_ite]
        split <;> rfl
      next hne => exact lookup_cons_of_set (Ne.symm hne) ih

theorem get_set (references : References W D) (zero : W) (name : String)
    (reference : Reference W D) (other : String) :
    (references.set name reference).get zero other =
      if other = name then reference else references.get zero other := by
  rw [get, set, lookup_setNamed]
  split
  next => rfl
  next => rfl

/-- The wire forms of the references, by their names. -/
def forms (converter : Converter W D) (zero : W) (references : References W D)
    (name : String) : W :=
  (references.get zero name).wireForm converter

theorem forms_set (converter : Converter W D) (zero : W) (references : References W D)
    (name : String) (reference : Reference W D) :
    (references.set name reference).forms converter zero =
      Function.update (references.forms converter zero) name (reference.wireForm converter) := by
  ext other
  rw [forms, get_set, Function.update_apply]
  split
  next => rfl
  next => rfl

theorem run_look (zero : W) (name : String)
    (body : Reference W D → Converting (α × Reference W D)) (references : References W D) :
    (look zero name body).run references =
      (((body (references.get zero name)).run references.count).1.1,
        { references.set name ((body (references.get zero name)).run references.count).1.2 with
          count := ((body (references.get zero name)).run references.count).2 }) := rfl

/-- Looking at a named reference keeps all wire forms. -/
theorem look_tells {body : Reference W D → Converting (α × Reference W D)} {answer : W → α}
    (hbody : Reference.Tells converter body answer) (zero : W) (name : String)
    (references : References W D) :
    ∃ after, (look zero name body).run references =
        (answer (references.forms converter zero name), after) ∧
      after.forms converter zero = references.forms converter zero := by
  obtain ⟨reference, count, hrun, hform⟩ := hbody (references.get zero name) references.count
  refine ⟨{ references.set name reference with count }, ?_, ?_⟩
  · rw [run_look, hrun]
    rfl
  · change (references.set name reference).forms converter zero = _
    rw [forms_set, hform]
    exact Function.update_eq_self name _

theorem copy_tells (converter : Converter W D) (zero : W) (source target : String)
    (references : References W D) :
    ∃ after, (copy zero source target).run references = ((), after) ∧
      after.forms converter zero =
        Function.update (references.forms converter zero) target
          (references.forms converter zero source) := by
  refine ⟨(references.set source (references.get zero source)).set target
    (references.get zero source), rfl, ?_⟩
  rw [forms_set, forms_set]
  change Function.update (Function.update (references.forms converter zero) source
    (references.forms converter zero source)) target (references.forms converter zero source) = _
  rw [Function.update_eq_self]

theorem equal_tells [BEq W] (converter : Converter W D) (zero : W) (first second : String)
    (references : References W D) :
    ∃ after, (equal converter zero first second).run references =
        (references.forms converter zero first == references.forms converter zero second, after) ∧
      after.forms converter zero = references.forms converter zero := by
  have hwire := Reference.tells_withWire converter (id : W → W)
  obtain ⟨middle, hfirst, hmiddle⟩ := look_tells hwire zero first references
  obtain ⟨after, hsecond, hafter⟩ := look_tells hwire zero second middle
  refine ⟨after, ?_, hafter.trans hmiddle⟩
  rw [hmiddle] at hsecond
  unfold equal unwrapped Reference.unwrapped
  rw [StateT.run_bind, hfirst]
  change ((look zero second (Reference.withWire converter id) >>= _).run middle) = _
  rw [StateT.run_bind, hsecond]
  rfl

end References

/-! ## Looks -/

/-- What is asked of named references. -/
inductive Look where
  | wrapped (name : String)
  | unwrapped (name : String)
  | encode (name : String)
  | size (name : String)
  | isDefault (name : String)
  | hash (name : String)
  | equal (first second : String)
  /-- Makes the second name refer to a copy of the first one's reference. -/
  | copy (source target : String)

/-- What is answered. -/
inductive Sight (W D : Type) where
  | domain (outcome : Except ConversionError D)
  | wire (value : W)
  | bytes (bytes : Bytes)
  | number (number : Nat)
  | digest (digest : UInt64)
  | flag (flag : Bool)
  | nothing

/-- The values of a wire type as fields have them: the default, how they are values of messages, of
which type, and the pass in which they are measured and written. -/
structure WireValues (W : Type) where
  zero : W
  value : W → Value
  type : ValueType
  catalog : Catalog
  pass : Pass

namespace Look

/-! ## What looks are about -/

/-- The names of the references that are looked at. -/
def names : Look → List String
  | .wrapped name | .unwrapped name | .encode name | .size name | .isDefault name | .hash name =>
      [name]
  | .equal first second => [first, second]
  | .copy source _ => [source]

/-- The wire forms afterwards: only a copy has a name refer to something else. -/
def formsAfter (forms : String → W) : Look → String → W
  | .copy source target => Function.update forms target (forms source)
  | _ => forms

/-- A look that does not have the name refer to something else. -/
def Spares (name : String) (look : Look) : Prop := ∀ source, look ≠ .copy source name

theorem Spares.formsAfter_eq {name : String} {look : Look} (hspares : look.Spares name)
    (forms : String → W) : look.formsAfter forms name = forms name := by
  cases look with
  | copy source target =>
      have hne : name ≠ target := fun hsame => hspares source (by rw [hsame])
      exact Function.update_of_ne hne _ _
  | _ => rfl

theorem foldl_formsAfter_eq {name : String} {looks : List Look}
    (hspared : ∀ look ∈ looks, look.Spares name) (forms : String → W) :
    looks.foldl formsAfter forms name = forms name := by
  induction looks generalizing forms with
  | nil => rfl
  | cons look looks ih =>
      obtain ⟨hlook, hlooks⟩ := List.forall_mem_cons.mp hspared
      rw [List.foldl_cons, ih hlooks, hlook.formsAfter_eq]

/-! ## One look -/

theorem run_map {σ β : Type} {ask : StateM σ α} {state after : σ} {answer : α}
    (hrun : ask.run state = (answer, after)) (sight : α → β) :
    (ask >>= fun answer => pure (sight answer)).run state = (sight answer, after) := by
  rw [StateT.run_bind, hrun]
  rfl

theorem run_seen {ask : StateM (References W D) α} {references : References W D} {answer : α}
    {zero : W} {forms : String → W}
    (hask : ∃ after, ask.run references = (answer, after) ∧ after.forms converter zero = forms)
    (sight : α → Sight W D) :
    ∃ after, (ask >>= fun answer => pure (sight answer)).run references = (sight answer, after) ∧
      after.forms converter zero = forms := by
  obtain ⟨after, hrun, hforms⟩ := hask
  exact ⟨after, run_map hrun sight, hforms⟩

variable [BEq W] [Hashable W]

/-- Takes a look. -/
def run (converter : Converter W D) (wires : WireValues W) :
    Look → StateM (References W D) (Sight W D)
  | .wrapped name => return .domain (← References.wrapped converter wires.zero name)
  | .unwrapped name => return .wire (← References.unwrapped converter wires.zero name)
  | .encode name => return .bytes (← References.withWire converter wires.zero name fun wire =>
      (wires.value wire).write wires.catalog wires.pass wires.type)
  | .size name => return .number (← References.withWire converter wires.zero name fun wire =>
      (wires.value wire).size wires.catalog wires.pass wires.type)
  | .isDefault name => return .flag (← References.withWire converter wires.zero name fun wire =>
      (wires.value wire).isDefault wires.catalog wires.pass wires.type)
  | .hash name => return .digest (← References.withWire converter wires.zero name Hashable.hash)
  | .equal first second => return .flag (← References.equal converter wires.zero first second)
  | .copy source target => do
      References.copy wires.zero source target
      return .nothing

/-- What is seen if the references have the given wire forms. -/
def sight (converter : Converter W D) (wires : WireValues W) (forms : String → W) :
    Look → Sight W D
  | .wrapped name => .domain (Reference.outcome converter (forms name))
  | .unwrapped name => .wire (forms name)
  | .encode name => .bytes ((wires.value (forms name)).write wires.catalog wires.pass wires.type)
  | .size name => .number ((wires.value (forms name)).size wires.catalog wires.pass wires.type)
  | .isDefault name =>
      .flag ((wires.value (forms name)).isDefault wires.catalog wires.pass wires.type)
  | .hash name => .digest (Hashable.hash (forms name))
  | .equal first second => .flag (forms first == forms second)
  | .copy _ _ => .nothing

/-- One look is answered from the wire forms and keeps them, but for what is copied. -/
theorem run_eq (hfaithful : converter.Faithful) (wires : WireValues W) (look : Look)
    (references : References W D) :
    ∃ after, (look.run converter wires).run references =
        (look.sight converter wires (references.forms converter wires.zero), after) ∧
      after.forms converter wires.zero =
        look.formsAfter (references.forms converter wires.zero) := by
  have htells {β : Type} (tell : W → β) (name : String) := References.look_tells
    (Reference.tells_withWire converter tell) wires.zero name references
  cases look with
  | wrapped name =>
      have hwrapped := Reference.tells_wrapped hfaithful
      exact run_seen (References.look_tells hwrapped wires.zero name references) Sight.domain
  | unwrapped name => exact run_seen (htells id name) Sight.wire
  | encode name => exact run_seen (htells _ name) Sight.bytes
  | size name => exact run_seen (htells _ name) Sight.number
  | isDefault name => exact run_seen (htells _ name) Sight.flag
  | hash name => exact run_seen (htells Hashable.hash name) Sight.digest
  | equal first second =>
      exact run_seen (References.equal_tells converter wires.zero first second references)
        Sight.flag
  | copy source target =>
      exact run_seen (References.copy_tells converter wires.zero source target references)
        fun _ => Sight.nothing

/-! ## Runs -/

/-- What is seen by one look after the other. -/
def sights (converter : Converter W D) (wires : WireValues W) :
    (String → W) → List Look → List (Sight W D)
  | _, [] => []
  | forms, look :: looks =>
      look.sight converter wires forms :: sights converter wires (look.formsAfter forms) looks

/-- All looks are answered from the wire forms, as copies carry them along. -/
theorem mapM_run (hfaithful : converter.Faithful) (wires : WireValues W) (looks : List Look)
    (references : References W D) :
    ∃ after, (looks.mapM (run converter wires)).run references =
        (sights converter wires (references.forms converter wires.zero) looks, after) ∧
      after.forms converter wires.zero =
        looks.foldl formsAfter (references.forms converter wires.zero) := by
  induction looks generalizing references with
  | nil => exact ⟨references, rfl, rfl⟩
  | cons look looks ih =>
      -- The other looks start from the wire forms that the first one leaves.
      obtain ⟨middle, hlook, hmiddle⟩ := run_eq hfaithful wires look references
      obtain ⟨after, hlooks, hafter⟩ := ih middle
      rw [hmiddle] at hlooks hafter
      refine ⟨after, ?_, hafter⟩
      rw [List.mapM_cons, StateT.run_bind, hlook]
      exact run_map hlooks _

theorem sight_congr {look : Look} {forms forms' : String → W}
    (hforms : ∀ name ∈ look.names, forms name = forms' name) (wires : WireValues W) :
    look.sight converter wires forms = look.sight converter wires forms' := by
  cases look with
  | copy => rfl
  | equal first second =>
      rw [sight, sight, hforms first (by simp [names]), hforms second (by simp [names])]
  | _ name => simp only [sight, hforms name (List.mem_singleton_self name)]

/-- What is seen of references that are not replaced is seen from the start. -/
theorem sights_getElem {looks : List Look} {place : Nat} {look : Look}
    (hlook : looks[place]? = some look)
    (hspared : ∀ name ∈ look.names, ∀ other ∈ looks, other.Spares name)
    (wires : WireValues W) (forms : String → W) :
    (sights converter wires forms looks)[place]? = some (look.sight converter wires forms) := by
  induction looks generalizing place forms with
  | nil => cases hlook
  | cons first looks ih =>
      cases place with
      | zero =>
          cases hlook
          rfl
      | succ place =>
          have hrest := ih hlook
            (fun name hname other hother =>
              hspared name hname other (List.mem_cons_of_mem first hother))
            (first.formsAfter forms)
          refine hrest.trans (congrArg some (sight_congr (fun name hname => ?_) wires))
          exact (hspared name hname first List.mem_cons_self).formsAfter_eq forms

end Look

theorem Reference.inWireForm_toValue (converter : Converter W D) (value : W → Value)
    (reference : Reference W D) :
    (reference.toValue converter value).inWireForm =
      .reference .wire (value (reference.wireForm converter)).inWireForm := rfl

/-- Looks of any kind and in any order are answered from the wire forms and leave them as they are.
A wire form that is refused stays in its place. What is not replaced by a copy is seen alike each
time, and the messages around it cannot be told apart from what they were. -/
theorem looks_change_nothing :
    (uuidConverter.Faithful ∧ ipAddressConverter.Faithful) ∧
    ∀ {W D : Type} [BEq W] [Hashable W] (converter : Converter W D), converter.Faithful →
    ∀ (wires : WireValues W) (looks : List Look) (references : References W D),
    ∃ seen after, (looks.mapM (Look.run converter wires)).run references = (seen, after) ∧
      seen = Look.sights converter wires (references.forms converter wires.zero) looks ∧
      (∀ (place : Nat) (look : Look), looks[place]? = some look →
        (∀ name ∈ look.names, ∀ other ∈ looks, other.Spares name) →
          seen[place]? =
            some (look.sight converter wires (references.forms converter wires.zero))) ∧
      (∀ name, (∀ look ∈ looks, look.Spares name) →
        after.forms converter wires.zero name = references.forms converter wires.zero name) ∧
      (∀ name reason, converter.wrap (after.forms converter wires.zero name) = .error reason →
        after.get wires.zero name = .wire (after.forms converter wires.zero name)) ∧
      ∀ {Place : Type} (outline : MessageOutline Place) (name : Place → String),
        (∀ place, ∀ look ∈ looks, look.Spares (name place)) →
          let message (references : References W D) : Message := outline.fill fun place =>
            (references.get wires.zero (name place)).toValue converter wires.value
          (∀ (catalog : Catalog) running next type call,
            (catalog.call running next type (message after) call).answer =
              (catalog.call running next type (message references) call).answer) ∧
          ∀ other, (message after).equal other = (message references).equal other ∧
            other.equal (message after) = other.equal (message references) := by
  refine ⟨⟨uuidConverter_faithful, ipAddressConverter_faithful⟩, ?_⟩
  intro W D _ _ converter hfaithful wires looks references
  obtain ⟨after, hrun, hforms⟩ := Look.mapM_run hfaithful wires looks references
  have hkept : ∀ name, (∀ look ∈ looks, look.Spares name) →
      after.forms converter wires.zero name = references.forms converter wires.zero name := by
    intro name hspared
    rw [hforms, Look.foldl_formsAfter_eq hspared]
  refine ⟨_, after, hrun, rfl, ?_, hkept, ?_, ?_⟩
  · intro place look hlook hspared
    exact Look.sights_getElem hlook hspared wires _
  · intro name reason hrefused
    exact Reference.eq_wire_of_refused hfaithful hrefused
  · intro Place outline name hspared message
    apply Catalog.indistinguishable
    apply outline.inWireForm_fill
    intro place
    have hform := hkept (name place) (hspared place)
    rw [References.forms, References.forms] at hform
    rw [Reference.inWireForm_toValue, Reference.inWireForm_toValue, hform]

/-- A session with an IPv4-mapped IPv6 address as its peer and a hop that is no address. Both are
looked at, and a copy of the hop is made. -/
theorem session_looked_at :
    let mapped : IpAddress := .v6 ⟨#[0, 0, 0, 0, 0, 0, 0, 0, 0, 0, 255, 255, 1, 2, 3, 4], rfl⟩
    let refused : ConversionError := ⟨"IpAddrBytesConverter", "expected 4 or 16 bytes, got 3"⟩
    let references : References Bytes IpAddress :=
      { named := [("peer", .domain mapped), ("hop", .wire [1, 2, 3])] }
    let sessions : Catalog := ⟨[("Session", Samples.session)]⟩
    let wires : WireValues Bytes :=
      { zero := [], value := fun bytes => .scalar (.bytes bytes), type := .scalar .bytes,
        catalog := sessions, pass := none }
    let looks : List Look := [.wrapped "hop", .equal "peer" "hop", .wrapped "peer",
      .copy "hop" "spare", .size "peer", .wrapped "spare", .wrapped "hop"]
    let outline : MessageOutline Bool :=
      .mk [.given (.singular (.reference .wire (.scalar (.bytes [])))), .singular (.place true),
        .repeated [.place false, .place true]] ⟨[]⟩ .empty
    let session (references : References Bytes IpAddress) : Message := outline.fill fun place =>
      (references.get [] (if place then "peer" else "hop")).toValue ipAddressConverter wires.value
    ∃ after, (looks.mapM (Look.run ipAddressConverter wires)).run references =
        ([.domain (.error refused), .flag false, .domain (.ok mapped), .nothing, .number 17,
          .domain (.error refused), .domain (.error refused)], after) ∧
      after.get [] "hop" = .wire [1, 2, 3] ∧
      (sessions.call none 0 "Session" (session after) .bodySize).answer = .number 41 := by
  intro mapped refused references sessions wires looks outline session
  obtain ⟨⟨-, hfaithful⟩, hlooks⟩ := looks_change_nothing
  obtain ⟨seen, after, hrun, hseen, -, hkept, hrefused, hsame⟩ :=
    hlooks ipAddressConverter hfaithful wires looks references
  have hspared : ∀ name, name ≠ "spare" → ∀ look ∈ looks, look.Spares name := by
    intro name hname look hlook source hcopy
    subst hcopy
    simp [looks] at hlook
    exact hname hlook.2
  refine ⟨after, ?_, ?_, ?_⟩
  · rw [hrun, hseen]
    refine congrArg (·, after) ?_
    cbv
  · have hform := hkept "hop" (hspared "hop" (by decide))
    have hwire := hrefused "hop" "expected 4 or 16 bytes, got 3" (by rw [hform]; cbv)
    rw [hwire, hform]
    cbv
  · have hanswers := (hsame outline (fun place => if place then "peer" else "hop")
      fun place => hspared _ (by cases place <;> decide)).1
    exact (hanswers sessions none 0 "Session" .bodySize).trans (by cbv)

end ProtoWire
