import Mathlib.Logic.Relation
import ProtoWire.Message.Edit
import ProtoWire.Proofs.Caches
import ProtoWire.Proofs.Remembered
import ProtoWire.Proofs.Typed
import ProtoWire.Samples

/-! # Remembered sizes over whole runs

A program holds messages, changes them between calls, moves them into one another together with what
they remember, copies and decodes them, and measures and encodes them in passes that other calls may
join. No remembered size is of a pass still to come, and what is remembered of the running pass is
right. So every answer is that of the message with all remembered sizes taken away.
-/

namespace ProtoWire

/-! ## Calls -/

/-- What is asked of a message. -/
inductive Call where
  | size
  | bytes
  /-- The bytes in a buffer that is frozen. -/
  | frozen
  /-- The bytes, handed on to a writer. -/
  | handedTo (writer : Writer)
  | delimited
  | bytesInto (capacity : Nat)
  | delimitedInto (capacity : Nat)
  /-- The size of the body, as messages around it ask for it. -/
  | bodySize
  /-- The size as a value of a field. -/
  | valueSize
  | isDefault
  /-- The bytes as a value of a field. -/
  | valueBytes

/-- What is answered. -/
inductive Answer where
  | number (number : Nat)
  | flag (flag : Bool)
  | bytes (bytes : Bytes)
  | buffer (buffer : Buffer)
  | handedOn (outcome : Except WriteFault Unit × Writer)
  | written (outcome : Except EncodeError Bytes)

namespace Call

/-- Whether a call is a pass of its own unless it joins one. -/
def isPass : Call → Bool
  | .size | .bytes | .frozen | .handedTo _ | .delimited | .bytesInto _ | .delimitedInto _ => true
  | .bodySize | .valueSize | .isDefault | .valueBytes => false

/-- The pass that a call runs in, given the pass that is running and the next one. -/
def pass (running : Pass) (next : Nat) (call : Call) : Pass :=
  if call.isPass then some (running.getD next) else running

/-- The answer for a message of a given size and body. -/
def answer (size : Nat) (body : Bytes) : Call → Answer
  | .size | .bodySize => .number size
  | .bytes => .bytes body
  | .frozen => .buffer ((Buffer.withCapacity size).put body)
  | .handedTo writer => .handedOn (writer.writeAll body)
  | .delimited | .valueBytes => .bytes (encodeLength size ++ body)
  | .bytesInto capacity =>
      .written (if capacity < size then .error ⟨size, capacity⟩ else .ok body)
  | .delimitedInto capacity =>
      let required := Varint.delimitedSize size
      .written (if capacity < required then .error ⟨required, capacity⟩
        else .ok (encodeLength size ++ body))
  | .valueSize => .number (Varint.delimitedSize size)
  | .isDefault => .flag (size == 0)

end Call

/-- The answer put in another form. -/
def Encoded.map {α β : Type} (form : α → β) (encoded : Encoded α) : Encoded β :=
  ⟨form encoded.answer, encoded.message⟩

/-- A call on a message, given the pass that is running and the next one. -/
def Catalog.call (catalog : Catalog) (running : Pass) (next : Nat) (name : String)
    (message : Message) : Call → Encoded Answer
  | .size => (catalog.measure name (running.getD next) message).map .number
  | .bytes => (catalog.encode name (running.getD next) message).map .bytes
  | .frozen => (catalog.encodeFrozen name (running.getD next) message).map .buffer
  | .handedTo writer => (catalog.encodeTo name (running.getD next) writer message).map .handedOn
  | .delimited => (catalog.encodeDelimited name (running.getD next) message).map .bytes
  | .bytesInto capacity =>
      (catalog.encodeInto name (running.getD next) capacity message).map .written
  | .delimitedInto capacity =>
      (catalog.encodeDelimitedInto name (running.getD next) capacity message).map .written
  | .bodySize =>
      ⟨.number (catalog.bodySize name running message), catalog.settle name running message⟩
  | .valueSize =>
      ⟨.number ((Value.message message).size catalog running (.message name)),
        catalog.settle name running message⟩
  | .isDefault =>
      ⟨.flag ((Value.message message).isDefault catalog running (.message name)),
        catalog.settle name running message⟩
  | .valueBytes =>
      match running with
      | none => (catalog.encodeValue name message).map .bytes
      | some pass => (catalog.encodeDelimited name pass message).map .bytes

section Calls

variable {catalog : Catalog} {name : String} {message : Message} {running : Pass} {next : Nat}

theorem Catalog.call_message (call : Call) :
    (catalog.call running next name message call).message =
      catalog.settle name (call.pass running next) message := by
  cases call with
  | bytesInto capacity =>
      simp only [Catalog.call, Encoded.map, encodeInto]
      split <;> rfl
  | delimitedInto capacity =>
      simp only [Catalog.call, Encoded.map, encodeDelimitedInto]
      split <;> rfl
  | valueBytes => cases running <;> rfl
  | _ => rfl

/-- Where what is remembered of its pass is right, a call answers for the message of which nothing
is remembered, and leaves that message behind. -/
theorem Catalog.call_answer (call : Call) {first : Prop}
    (hmessage : message.Conforms catalog (Message.Ready catalog (call.pass running next) first)
      (catalog.schema name)) :
    let outcome := catalog.call running next name message call
    outcome.answer = call.answer (message.plainSize catalog (catalog.schema name))
        (message.plainBody catalog (catalog.schema name)) ∧
      outcome.message.rebuild catalog .bare (catalog.schema name) =
        message.rebuild catalog .bare (catalog.schema name) ∧
      outcome.message.Conforms catalog
        (Message.Settled catalog (call.pass running next) first) (catalog.schema name) := by
  intro outcome
  have hleft : outcome.message = catalog.settle name (call.pass running next) message :=
    catalog.call_message call
  obtain ⟨hrebuild, hsettled⟩ := inherits_settle.of_message hmessage
  -- Sizes are asked of the message before or after they are worked out, which makes no difference.
  have hbefore : catalog.bodySize name (call.pass running next) message =
      message.plainSize catalog (catalog.schema name) :=
    (hmessage.plain fun _ _ h => h.reusable).size_eq
  have hafter := hsettled.plain fun _ _ h => h.reusable
  have hsize : catalog.bodySize name (call.pass running next)
      (catalog.settle name (call.pass running next) message) =
        message.plainSize catalog (catalog.schema name) := by
    rw [Message.plainSize, ← hrebuild]
    exact hafter.size_eq
  have hbody : catalog.writeBody name (call.pass running next)
      (catalog.settle name (call.pass running next) message) =
        message.plainBody catalog (catalog.schema name) := by
    rw [Message.plainBody, ← hrebuild]
    exact hafter.write_eq
  refine ⟨?_, hleft ▸ hrebuild, hleft ▸ hsettled⟩
  rw [← hsize, ← hbody]
  cases call with
  | size | bytes | frozen | handedTo | delimited => rfl
  | bytesInto capacity =>
      simp only [outcome, Catalog.call, Encoded.map, encodeInto, Call.answer]
      split
      next hshort => exact congrArg Answer.written (if_pos hshort).symm
      next hroom => exact congrArg Answer.written (if_neg hroom).symm
  | delimitedInto capacity =>
      simp only [outcome, Catalog.call, Encoded.map, encodeDelimitedInto, Call.answer]
      split
      next hshort => exact congrArg Answer.written (if_pos hshort).symm
      next hroom => exact congrArg Answer.written (if_neg hroom).symm
  | bodySize => exact congrArg Answer.number (hbefore.trans hsize.symm)
  | valueSize =>
      exact congrArg (Answer.number ∘ Varint.delimitedSize) (hbefore.trans hsize.symm)
  | isDefault => exact congrArg (Answer.flag <| · == 0) (hbefore.trans hsize.symm)
  | valueBytes => cases running <;> rfl

theorem Call.pass_some {pass : Nat} (call : Call) : call.pass (some pass) next = some pass := by
  rw [Call.pass]
  split <;> rfl

theorem Call.pass_isSome {call : Call} (hpass : call.isPass = true) :
    (call.pass running next).isSome = true := by
  rw [Call.pass, if_pos hpass]
  rfl

/-- Where types remember no sizes, a copy answers for the message of which nothing is remembered. -/
theorem Catalog.call_withoutCaches {holds : MessageSchema → Message → Prop} (call : Call)
    (hmessage : message.Conforms catalog holds (catalog.schema name)) :
    (catalog.withoutCaches.call running next name message.copy call).answer =
      call.answer (message.plainSize catalog (catalog.schema name))
        (message.plainBody catalog (catalog.schema name)) := by
  have hempty : ∀ schema contents unknown,
      Message.Ready catalog.withoutCaches (call.pass running next) False schema
        (.mk contents unknown .empty) := fun schema contents unknown =>
    Message.ready_of_unused (SizeCache.find_empty _)
  obtain ⟨hcopy, hrebuild⟩ := hmessage.copy_withoutCaches hempty
  obtain ⟨hanswer, _⟩ := catalog.withoutCaches.call_answer call hcopy
  rw [hanswer, Message.plainSize, Message.plainBody, hrebuild, catalog.withoutCaches_withoutCaches,
    catalog.schema_withoutCaches]
  rfl

end Calls

/-! ## Sessions -/

/-- The messages that a program holds, each with the name of its type, and the encode passes: the
next one and the one that is running. -/
structure Session where
  next : Nat
  running : Pass
  held : List (String × Message)

namespace Session

/-- Before the first call nothing is held and no pass is running. -/
def start (next : Nat) : Session := ⟨next, none, []⟩

/-- The next pass once a call is made. -/
def nextAfter (session : Session) (call : Call) : Nat :=
  if call.isPass && session.running.isNone then session.next + 1 else session.next

/-- What a program can do. -/
inductive Step (catalog : Catalog) : Session → Session → Prop where
  /-- Between calls messages are made, dropped, changed and moved into and out of one another; a
  nested message is held itself while it is called on its own. A cache is a new one or was in some
  message before.

  Changes while a pass is running are left out. The message that is encoded cannot be changed then;
  but what runs on the way, a sink or a converter, may change another one. If the pass has already
  remembered the size of that one, then a call that joins the pass answers with the size from before
  the change. -/
  | edit {session : Session} (held : List (String × Message)) (hrunning : session.running = none)
      (htypes : ∀ entry ∈ held,
        entry.2.Conforms catalog (fun _ _ => True) (catalog.schema entry.1))
      (hcaches : ∀ entry ∈ held, ∀ cache ∈ entry.2.caches,
        cache = .empty ∨ ∃ other ∈ session.held, cache ∈ other.2.caches) :
      Step catalog session { session with held }
  /-- At any time a message is made anew. -/
  | make {session : Session} {name : String} {message : Message}
      (hmessage : message.Conforms catalog Message.Forgetful (catalog.schema name)) :
      Step catalog session { session with held := (name, message) :: session.held }
  | clone {session : Session} {name : String} {message : Message}
      (hheld : (name, message) ∈ session.held) :
      Step catalog session { session with held := (name, message.copy) :: session.held }
  | decode {session : Session} {name : String} {bytes : Bytes} {config : ReaderConfig}
      {message : Message} (hdecode : catalog.decode name bytes config = .ok message) :
      Step catalog session { session with held := (name, message) :: session.held }
  | decodeDelimited {session : Session} {name : String} {bytes : Bytes} {config : ReaderConfig}
      {message : Message} (hdecode : catalog.decodeDelimited name bytes config = .ok message) :
      Step catalog session { session with held := (name, message) :: session.held }
  | call {session : Session} {before after : List (String × Message)} {name : String}
      {message : Message} (call : Call)
      (hheld : session.held = before ++ (name, message) :: after) :
      Step catalog session
        { session with
          next := session.nextAfter call
          held := before ++
            (name, (catalog.call session.running session.next name message call).message) :: after }
  /-- A pass begins, which all calls join until it ends. -/
  | enter {session : Session} (hrunning : session.running = none) :
      Step catalog session
        { session with next := session.next + 1, running := some session.next }
  | leave {session : Session} : Step catalog session { session with running := none }
  /-- A pass begins on another thread. -/
  | elsewhere {session : Session} : Step catalog session { session with next := session.next + 1 }

/-- No pass that is still to come is remembered, and what is remembered of the running pass is
right. -/
structure Sound (catalog : Catalog) (session : Session) : Prop where
  reusable : ∀ entry ∈ session.held,
    entry.2.Conforms catalog (fun schema message => message.Reusable catalog session.running schema)
      (catalog.schema entry.1)
  stored_lt : ∀ entry ∈ session.held, ∀ cache ∈ entry.2.caches, ∀ stored,
    cache.stored = some stored → stored.pass < session.next
  running_lt : ∀ pass, session.running = some pass → pass < session.next

variable {catalog : Catalog} {session : Session}

/-- A message that remembers nothing can be added at any time. -/
theorem Sound.add (hsound : session.Sound catalog) {name : String} {message : Message}
    (hmessage : message.Conforms catalog Message.Forgetful (catalog.schema name)) :
    Sound catalog { session with held := (name, message) :: session.held } where
  reusable := by
    refine List.forall_mem_cons.mpr ⟨?_, hsound.reusable⟩
    refine Message.Conforms.mono hmessage fun schema message hempty => ?_
    refine Message.reusable_of_unused ?_
    rw [hempty]
    exact SizeCache.find_empty _
  stored_lt := by
    refine List.forall_mem_cons.mpr ⟨fun cache hcache stored hstored => ?_, hsound.stored_lt⟩
    rw [(hmessage.caches_iff (· = .empty)).mp hmessage cache hcache] at hstored
    cases hstored
  running_lt := hsound.running_lt

/-- Nothing is remembered of the next pass. -/
theorem Sound.unused (hsound : session.Sound catalog) {entry : String × Message}
    (hentry : entry ∈ session.held) :
    entry.2.Conforms catalog (fun _ message => message.cache.find? (some session.next) = none)
      (catalog.schema entry.1) :=
  ((hsound.reusable entry hentry).caches_iff (·.find? (some session.next) = none)).mpr
    fun cache hcache => SizeCache.find_eq_none (hsound.stored_lt entry hentry cache hcache)

/-- What a call finds remembered of its pass is right, and it finds nothing unless another pass is
running. -/
theorem Sound.ready (hsound : session.Sound catalog) {name : String} {message : Message}
    (hheld : (name, message) ∈ session.held) (call : Call) :
    message.Conforms catalog
      (Message.Ready catalog (call.pass session.running session.next) (session.running = none))
      (catalog.schema name) := by
  have hreusable := hsound.reusable (name, message) hheld
  -- A call joins the pass that is running, or it begins the next one or runs outside of passes.
  cases hrunning : session.running with
  | some pass =>
      rw [hrunning] at hreusable
      rw [Call.pass_some]
      exact hreusable.mono fun _ _ hright => ⟨hright, nofun⟩
  | none =>
      cases hpass : call.isPass with
      | true =>
          rw [Call.pass, if_pos hpass]
          exact (hsound.unused hheld).mono fun _ _ hnone => Message.ready_of_unused hnone
      | false =>
          rw [Call.pass, hpass]
          exact hreusable.mono fun _ _ _ => Message.ready_of_unused rfl

theorem next_le_nextAfter (session : Session) (call : Call) :
    session.next ≤ session.nextAfter call := by
  rw [nextAfter]
  split
  next => exact Nat.le_succ _
  next => exact Nat.le_refl _

theorem Sound.pass_lt (hsound : session.Sound catalog) (call : Call) {pass : Nat}
    (hpass : call.pass session.running session.next = some pass) :
    pass < session.nextAfter call := by
  cases hrunning : session.running with
  | some running =>
      rw [hrunning, Call.pass_some] at hpass
      cases hpass
      exact (hsound.running_lt pass hrunning).trans_le (session.next_le_nextAfter call)
  | none =>
      rw [hrunning, Call.pass] at hpass
      split at hpass
      next hown =>
        cases hpass
        rw [nextAfter, hown, hrunning]
        exact Nat.lt_succ_self _
      next => cases hpass

/-- What a call leaves behind remembers what is right of the running pass and nothing of a later
one. -/
theorem Sound.call (hsound : session.Sound catalog) {before after : List (String × Message)}
    {name : String} {message : Message} (call : Call)
    (hheld : session.held = before ++ (name, message) :: after) :
    Sound catalog
      { session with
        next := session.nextAfter call
        held := before ++
          (name, (catalog.call session.running session.next name message call).message) ::
            after } := by
  have hmem : (name, message) ∈ session.held := by
    rw [hheld]
    exact List.mem_append_right before List.mem_cons_self
  have hready := hsound.ready hmem call
  obtain ⟨_, _, hsettled⟩ := catalog.call_answer call hready
  -- The other messages are the same as before.
  have hothers : ∀ {holds : String × Message → Prop}, (∀ entry ∈ session.held, holds entry) →
      holds (name, (catalog.call session.running session.next name message call).message) →
      ∀ entry ∈ before ++
        (name, (catalog.call session.running session.next name message call).message) :: after,
        holds entry := by
    intro holds hall hnew
    rw [hheld, List.forall_mem_append, List.forall_mem_cons] at hall
    rw [List.forall_mem_append, List.forall_mem_cons]
    exact ⟨hall.1, hnew, hall.2.2⟩
  have hlater := session.next_le_nextAfter call
  refine ⟨hothers hsound.reusable ?_,
    hothers (fun entry hentry cache hcache stored hstored => ?_) ?_,
    fun pass hpass => (hsound.running_lt pass hpass).trans_le hlater⟩
  · refine Message.Conforms.mono hsettled fun schema message hright => ?_
    have hreusable := hright.reusable
    cases hrunning : session.running with
    | none => exact message.reusable_none schema
    | some pass =>
        rw [hrunning, Call.pass_some] at hreusable
        exact hreusable
  · exact (hsound.stored_lt entry hentry cache hcache stored hstored).trans_le hlater
  · rw [catalog.call_message]
    refine (CachesAdvance.inherits_settle.of_message hready).stored_lt
      (fun pass hpass => hsound.pass_lt call hpass) fun cache hcache stored hstored => ?_
    exact (hsound.stored_lt (name, message) hmem cache hcache stored hstored).trans_le hlater

theorem Sound.edit (hsound : session.Sound catalog) {held : List (String × Message)}
    (hrunning : session.running = none)
    (htypes : ∀ entry ∈ held,
      entry.2.Conforms catalog (fun _ _ => True) (catalog.schema entry.1))
    (hcaches : ∀ entry ∈ held, ∀ cache ∈ entry.2.caches,
      cache = .empty ∨ ∃ other ∈ session.held, cache ∈ other.2.caches) :
    Sound catalog { session with held } where
  reusable entry hentry := by
    refine Message.Conforms.mono (htypes entry hentry) fun schema message _ => ?_
    change message.Reusable catalog session.running schema
    rw [hrunning]
    exact message.reusable_none schema
  stored_lt entry hentry cache hcache stored hstored := by
    rcases hcaches entry hentry cache hcache with rfl | ⟨other, hother, hheld⟩
    · cases hstored
    · exact hsound.stored_lt other hother cache hheld stored hstored
  running_lt := hsound.running_lt

/-- A pass that begins finds nothing remembered of it. -/
theorem Sound.enter (hsound : session.Sound catalog) :
    Sound catalog { session with next := session.next + 1, running := some session.next } where
  reusable entry hentry := Message.Conforms.mono (hsound.unused hentry) fun _ _ hnone =>
    Message.reusable_of_unused hnone
  stored_lt entry hentry cache hcache stored hstored :=
    (hsound.stored_lt entry hentry cache hcache stored hstored).trans (Nat.lt_succ_self _)
  running_lt pass hpass := by
    cases hpass
    exact Nat.lt_succ_self _

/-- Every step keeps what is remembered right. -/
theorem Sound.step (hdefaulted : catalog.Defaulted) (hkeyed : catalog.Keyed)
    (hsound : session.Sound catalog) {later : Session} (hstep : Step catalog session later) :
    later.Sound catalog := by
  cases hstep with
  | edit held hrunning htypes hcaches => exact hsound.edit hrunning htypes hcaches
  | make hmessage => exact hsound.add hmessage
  | clone hheld =>
      exact hsound.add ((hsound.reusable _ hheld).copy fun schema contents unknown => rfl)
  | decode hdecode =>
      exact hsound.add (keeps_of_decodeWith (yields_catalogBody hdefaulted hkeyed _) hdecode)
  | decodeDelimited hdecode =>
      exact hsound.add
        (keeps_of_decodeWith (yields_catalogBody hdefaulted hkeyed _).readMessage hdecode)
  | call call hheld => exact hsound.call call hheld
  | enter hrunning => exact hsound.enter
  | leave =>
      exact ⟨fun entry hentry => Message.Conforms.mono (hsound.reusable entry hentry)
        fun schema message _ => message.reusable_none schema, hsound.stored_lt, fun _ => nofun⟩
  | elsewhere =>
      exact ⟨hsound.reusable, fun entry hentry cache hcache stored hstored =>
        (hsound.stored_lt entry hentry cache hcache stored hstored).trans (Nat.lt_succ_self _),
        fun pass hpass => (hsound.running_lt pass hpass).trans (Nat.lt_succ_self _)⟩

/-- Whatever was done before, what is remembered is right. -/
theorem sound_of_reachable (hdefaulted : catalog.Defaulted) (hkeyed : catalog.Keyed) {first : Nat}
    (hreachable : Relation.ReflTransGen (Step catalog) (start first) session) :
    session.Sound catalog := by
  induction hreachable with
  | refl => exact ⟨fun _ => nofun, fun _ => nofun, fun _ => nofun⟩
  | tail _ hstep ih => exact ih.step hdefaulted hkeyed hstep

/-- Whatever a program did before, a call on a message that it holds gives the answer that the
message gives with all caches taken away, in whatever pass, and leaves the same message behind up to
remembered sizes and the form of references. After a call that is a pass of its own every cache
holds the size of its message, and a call that is not in a pass changes no cache. Decoding does not
depend on caches. -/
theorem caches_invisible (hdefaulted : catalog.Defaulted) (hkeyed : catalog.Keyed) {first : Nat}
    (hreachable : Relation.ReflTransGen (Step catalog) (start first) session) {name : String}
    {message : Message} (hheld : (name, message) ∈ session.held) (call : Call) :
    let outcome := catalog.call session.running session.next name message call
    (∀ running next, outcome.answer =
        (catalog.withoutCaches.call running next name message.copy call).answer) ∧
      outcome.message.rebuild catalog .bare (catalog.schema name) =
        message.rebuild catalog .bare (catalog.schema name) ∧
      (session.running = none → call.isPass = true →
        outcome.message.Conforms catalog (fun schema message => schema.cachesSize = true →
          message.cache.get? = some (message.bodySize catalog none schema)) (catalog.schema name)) ∧
      (session.running = none → call.isPass = false → outcome.message.caches = message.caches) ∧
      ∀ name bytes config,
        catalog.withoutCaches.decode name bytes config = catalog.decode name bytes config := by
  intro outcome
  have hsound := sound_of_reachable hdefaulted hkeyed hreachable
  have hready := hsound.ready hheld call
  obtain ⟨hanswer, hrebuild, hsettled⟩ := catalog.call_answer call hready
  refine ⟨fun running next => ?_, hrebuild, fun hnone hpass => ?_, fun hnone hpass => ?_,
    catalog.decode_withoutCaches⟩
  · exact hanswer.trans (catalog.call_withoutCaches call hready).symm
  · exact Message.Conforms.mono hsettled fun schema message hright hcaches =>
      hright.get_eq hnone (Call.pass_isSome hpass) hcaches
  · have hleft : outcome.message = _ := catalog.call_message call
    rw [hnone, Call.pass, hpass] at hleft
    rw [hleft]
    exact (CachesAdvance.inherits_settle.of_message hready).eq_of_none

/-- A tree that is measured, of which a child is then changed, and that is encoded. -/
theorem changed_tree_encoded :
    let messages : Catalog := ⟨[("Cached", Samples.cached)]⟩
    let tree (text : String) (outer inner : SizeCache) : Message :=
      .mk [.singular (.scalar (.string "r")), .repeated [.message
        (.mk [.singular (.scalar (.string text)), .repeated []] .empty inner)]] .empty outer
    let measured := (messages.call none 1 "Cached" (tree "a" .empty .empty) .size).message
    let changed := measured.modifyAt 1 (Message.appendText 0 "b") [0]
    let outcome := messages.call none 2 "Cached" changed .bytes
    changed = tree "ab" ⟨some ⟨1, 8⟩⟩ ⟨some ⟨1, 3⟩⟩ ∧
      outcome.answer = .bytes [10, 1, 114, 18, 4, 10, 2, 97, 98] ∧
      (messages.withoutCaches.call none 0 "Cached" changed.copy .bytes).answer =
        .bytes [10, 1, 114, 18, 4, 10, 2, 97, 98] ∧
      outcome.message.Conforms messages (fun schema message => schema.cachesSize = true →
        message.cache.get? = some (message.bodySize messages none schema))
        (messages.schema "Cached") := by
  intro messages tree measured changed outcome
  have hmeasured : measured = tree "a" ⟨some ⟨1, 8⟩⟩ ⟨some ⟨1, 3⟩⟩ := by
    dsimp only [measured, tree, messages]
    rfl
  have hchanged : changed = tree "ab" ⟨some ⟨1, 8⟩⟩ ⟨some ⟨1, 3⟩⟩ := by
    dsimp only [changed]
    rw [hmeasured]
    dsimp only [tree]
    rfl
  have hbytes : outcome.answer = .bytes [10, 1, 114, 18, 4, 10, 2, 97, 98] := by
    dsimp only [outcome]
    rw [hchanged]
    dsimp only [tree, messages]
    rfl
  have hconforms : ∀ text outer inner, (tree text outer inner).Conforms messages (fun _ _ => True)
      (messages.schema "Cached") := by
    intro text outer inner
    have hname : ∀ text, (Content.singular (.scalar (.string text))).Conforms messages
        (fun _ _ => True) (Samples.scalar "name" 1 .string) := fun text =>
      .singular _ _ _ _ _ _ (.scalar _ _ rfl)
    refine .mk _ _ _ _ trivial (.cons _ _ _ _ (hname "r") (.cons _ _ _ _ ?_ .nil))
    refine .repeated _ _ _ _ _ fun value hvalue => ?_
    rw [List.mem_singleton.mp hvalue]
    refine .message "Cached" _ (.mk _ _ _ _ trivial (.cons _ _ _ _ (hname text)
      (.cons _ _ _ _ (.repeated _ _ _ _ [] fun _ => nofun) .nil)))
  -- The tree is made, measured and changed, which leaves the caches as they were.
  have hmade : Relation.ReflTransGen (Step messages) (start 1)
      ⟨1, none, [("Cached", tree "a" .empty .empty)]⟩ := by
    refine .single (.edit _ rfl ?_ ?_)
    · intro entry hentry
      rw [List.mem_singleton.mp hentry]
      exact hconforms "a" .empty .empty
    · intro entry hentry cache hcache
      rw [List.mem_singleton.mp hentry] at hcache
      rcases List.mem_pair.mp hcache with rfl | rfl <;> exact .inl rfl
  have hcounted : Relation.ReflTransGen (Step messages) (start 1)
      ⟨2, none, [("Cached", measured)]⟩ :=
    hmade.tail (@Step.call messages ⟨1, none, _⟩ [] [] "Cached" _ .size rfl)
  have hreachable : Relation.ReflTransGen (Step messages) (start 1)
      ⟨2, none, [("Cached", changed)]⟩ := by
    refine hcounted.tail (.edit _ rfl ?_ ?_)
    · intro entry hentry
      rw [List.mem_singleton.mp hentry, hchanged]
      exact hconforms "ab" _ _
    · intro entry hentry cache hcache
      refine .inr ⟨("Cached", measured), List.mem_singleton_self _, ?_⟩
      rw [List.mem_singleton.mp hentry, hchanged] at hcache
      rw [hmeasured]
      exact hcache
  obtain ⟨hanswer, _, hcaches, _⟩ :=
    caches_invisible (by decide) (by decide) hreachable (List.mem_singleton_self _) .bytes
  exact ⟨hchanged, hbytes, (hanswer none 0).symm.trans hbytes, hcaches rfl rfl⟩

end Session

end ProtoWire
