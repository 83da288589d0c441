import ProtoWire.Proofs.Sessions

/-! # Writing into sinks, buffers and writers

A sink takes as many bytes as it has room for, and a write that does not fit is a fault. A call that
encodes into a sink compares the size of the message with the room once, before the first write. As
sizes are exact no write faults, wherever the bytes are cut into writes, and a sink with too little
room is left as it was. A buffer that is made with the size of the message never grows, and a writer
is given the bytes from the front, all of them unless one of its writes fails.
-/

namespace ProtoWire

/-! ## Sinks
-/

/-- What has been written to a sink, and how many bytes it still takes. -/
structure Sink where
  written : Bytes
  room : Nat
deriving DecidableEq, Repr

namespace Sink

/-- The sink after one more write, which has to fit. -/
def put (sink : Sink) (piece : Bytes) : Option Sink :=
  if sink.room < piece.length then none
  else some ⟨sink.written ++ piece, sink.room - piece.length⟩

/-- The sink after some writes, each of which has to fit. -/
def putAll (sink : Sink) (pieces : List Bytes) : Option Sink := pieces.foldlM put sink

/-- Writes fit one by one if they fit together. -/
theorem putAll_eq (sink : Sink) (pieces : List Bytes) :
    sink.putAll pieces = sink.put pieces.flatten := by
  induction pieces generalizing sink with
  | nil => simp [putAll, put]
  | cons piece pieces ih =>
      rw [putAll, List.foldlM_cons, List.flatten_cons]
      by_cases hroom : sink.room < piece.length
      · have hboth : sink.room < (piece ++ pieces.flatten).length := by
          rw [List.length_append]
          omega
        rw [put, put, if_pos hroom, if_pos hboth]
        rfl
      · have hrest := ih ⟨sink.written ++ piece, sink.room - piece.length⟩
        rw [putAll] at hrest
        rw [put, if_neg hroom, Option.bind_eq_bind, Option.bind_some, hrest, put, put,
          List.length_append, List.append_assoc]
        by_cases hboth : sink.room < piece.length + pieces.flatten.length
        · rw [if_pos hboth, if_pos (by dsimp only; omega)]
        · rw [if_neg hboth, if_neg (by dsimp only; omega), Nat.sub_sub]

end Sink

/-! ## Buffers and writers -/

/-- A buffer that is made with room for some bytes does not grow when it is filled with them. -/
theorem Buffer.put_withCapacity (bytes : Bytes) :
    (Buffer.withCapacity bytes.length).put bytes = ⟨bytes, bytes.length⟩ := by
  rw [withCapacity, put, List.nil_append, List.length_nil, Nat.zero_add, Nat.max_self]

/-- Whether a write ends the writing of all bytes before the last one. -/
def WriteAnswer.isFault : WriteAnswer → Bool
  | .takes count => count == 0
  | .interrupted => false
  | .fails _ => true

namespace Writer

/-- A writer is given bytes from the front, and is done with them exactly if none is left. -/
theorem exists_taken_writeFrom (written : Bytes) (answers : List WriteAnswer) (bytes : Bytes) :
    ∃ taken, taken <+: bytes ∧ (writeFrom written answers bytes).2.written = written ++ taken ∧
      ((writeFrom written answers bytes).1 = .ok () ↔ taken = bytes) := by
  fun_induction writeFrom written answers bytes with
  | case1 written answers => exact ⟨[], List.prefix_rfl, (List.append_nil _).symm, by simp⟩
  | case2 written bytes => exact ⟨bytes, List.prefix_rfl, rfl, by simp⟩
  | case3 written answers bytes hbytes =>
      exact ⟨[], List.nil_prefix, (List.append_nil _).symm, by simpa using Ne.symm hbytes⟩
  | case4 written count answers bytes hbytes hcount ih =>
      obtain ⟨taken, ⟨rest, hrest⟩, hwritten, hdone⟩ := ih
      refine ⟨bytes.take count ++ taken, ⟨rest, ?_⟩, ?_, ?_⟩
      · rw [List.append_assoc, hrest, List.take_append_drop]
      · rw [hwritten, List.append_assoc]
      · rw [hdone]
        constructor
        · rintro rfl
          exact List.take_append_drop count bytes
        · intro hall
          exact List.append_cancel_left (hall.trans (List.take_append_drop count bytes).symm)
  | case5 written answers bytes hbytes ih => exact ih
  | case6 written name answers bytes hbytes =>
      exact ⟨[], List.nil_prefix, (List.append_nil _).symm, by simpa using Ne.symm hbytes⟩

/-- Where no write is at fault, all bytes are written. -/
theorem writeFrom_of_no_fault {answers : List WriteAnswer}
    (hanswers : ∀ answer ∈ answers, answer.isFault = false) (written bytes : Bytes) :
    (writeFrom written answers bytes).1 = .ok () := by
  fun_induction writeFrom written answers bytes with
  | case1 | case2 => rfl
  | case3 => cases hanswers _ List.mem_cons_self
  | case4 written count answers bytes hbytes hcount ih =>
      exact ih fun answer hanswer => hanswers answer (List.mem_cons_of_mem _ hanswer)
  | case5 written answers bytes hbytes ih =>
      exact ih fun answer hanswer => hanswers answer (List.mem_cons_of_mem _ hanswer)
  | case6 => cases hanswers _ List.mem_cons_self

theorem exists_taken (writer : Writer) (bytes : Bytes) :
    ∃ taken, taken <+: bytes ∧ (writer.writeAll bytes).2.written = writer.written ++ taken ∧
      ((writer.writeAll bytes).1 = .ok () ↔ taken = bytes) ∧
      ((∀ answer ∈ writer.answers, answer.isFault = false) → taken = bytes) := by
  obtain ⟨taken, hprefix, hwritten, hdone⟩ :=
    exists_taken_writeFrom writer.written writer.answers bytes
  exact ⟨taken, hprefix, hwritten, hdone, fun hanswers =>
    hdone.mp (writeFrom_of_no_fault hanswers writer.written bytes)⟩

end Writer

/-! ## Calls -/

/-- A call that measures a message or encodes it, as bytes of their own, into a sink or for a
writer. -/
inductive EntryPoint where
  | size
  | bytes
  /-- The bytes in a buffer that is frozen. -/
  | frozen
  /-- The bytes, handed on to a writer. -/
  | handedTo (writer : Writer)
  /-- The bytes with their number in front. -/
  | delimited
  | into (sink : Sink)
  | delimitedInto (sink : Sink)

/-- What a call comes to. -/
inductive Outcome where
  | size (size : Nat)
  | bytes (bytes : Bytes)
  | buffer (buffer : Buffer)
  | handedOn (outcome : Except WriteFault Unit × Writer)
  | sink (result : Except EncodeError Unit) (sink : Sink)

namespace Sink

/-- A sink after a call, with the bytes written as they are cut into writes. There is no outcome if
one of them does not fit. -/
def receive (cut : Bytes → List Bytes) (sink : Sink) : Except EncodeError Bytes → Option Outcome
  | .error error => some (.sink (.error error) sink)
  | .ok bytes => (sink.putAll (cut bytes)).map (.sink (.ok ()))

/-- Bytes go into a sink whole, or it is left as it was. -/
def outcome (sink : Sink) (bytes : Bytes) : Outcome :=
  if sink.room < bytes.length then .sink (.error ⟨bytes.length, sink.room⟩) sink
  else .sink (.ok ()) ⟨sink.written ++ bytes, sink.room - bytes.length⟩

end Sink

/-- The outcome of a call on a message with the given bytes. -/
def EntryPoint.outcome (bytes : Bytes) : EntryPoint → Outcome
  | .size => .size bytes.length
  | .bytes => .bytes bytes
  | .frozen => .buffer ⟨bytes, bytes.length⟩
  | .handedTo writer => .handedOn (writer.writeAll bytes)
  | .delimited => .bytes (encodeLength bytes.length ++ bytes)
  | .into sink => sink.outcome bytes
  | .delimitedInto sink => sink.outcome (encodeLength bytes.length ++ bytes)

namespace Catalog

variable (catalog : Catalog) (name : String) (cut : Bytes → List Bytes)

/-- A call on a message in a pass of its own. -/
def enter (pass : Nat) (message : Message) : EntryPoint → Encoded (Option Outcome)
  | .size => (catalog.measure name pass message).map fun size => some (.size size)
  | .bytes => (catalog.encode name pass message).map fun bytes => some (.bytes bytes)
  | .frozen => (catalog.encodeFrozen name pass message).map fun buffer => some (.buffer buffer)
  | .handedTo writer =>
      (catalog.encodeTo name pass writer message).map fun outcome => some (.handedOn outcome)
  | .delimited => (catalog.encodeDelimited name pass message).map fun bytes => some (.bytes bytes)
  | .into sink => (catalog.encodeInto name pass sink.room message).map (sink.receive cut)
  | .delimitedInto sink =>
      (catalog.encodeDelimitedInto name pass sink.room message).map (sink.receive cut)

/-- The outcomes of calls in their passes, each on the message that the call before left behind. -/
def enterAll : Message → List (Nat × EntryPoint) → List (Option Outcome)
  | _, [] => []
  | message, (pass, call) :: calls =>
      let entered := catalog.enter name cut pass message call
      entered.answer :: enterAll entered.message calls

end Catalog

section Calls

variable {catalog : Catalog} {name : String} {cut : Bytes → List Bytes} {message : Message}

/-- If the room is compared with the number of bytes, no write faults. -/
theorem Sink.receive_eq (hcut : ∀ bytes, (cut bytes).flatten = bytes) (sink : Sink) {bytes : Bytes}
    {required : Nat} (hrequired : bytes.length = required) :
    sink.receive cut (if sink.room < required then .error ⟨required, sink.room⟩ else .ok bytes) =
      some (sink.outcome bytes) := by
  subst hrequired
  rw [outcome]
  by_cases hroom : sink.room < bytes.length
  · rw [if_pos hroom, if_pos hroom]
    rfl
  · rw [if_neg hroom, if_neg hroom, receive, putAll_eq, hcut, put, if_neg hroom]
    rfl

/-- A call leaves behind the message with its sizes worked out. -/
theorem Catalog.enter_message (pass : Nat) (call : EntryPoint) :
    (catalog.enter name cut pass message call).message =
      catalog.settle name (some pass) message := by
  cases call with
  | into sink =>
      simp only [Catalog.enter, Encoded.map, encodeInto]
      split <;> rfl
  | delimitedInto sink =>
      simp only [Catalog.enter, Encoded.map, encodeDelimitedInto]
      split <;> rfl
  | size | bytes | frozen | handedTo | delimited => rfl

theorem length_framed (bytes : Bytes) :
    (encodeLength bytes.length ++ bytes).length = Varint.delimitedSize bytes.length :=
  Varint.length_delimited bytes

/-- Where sizes are right, a call has the outcome of the bytes of the message. -/
theorem Catalog.enter_answer (hcut : ∀ bytes, (cut bytes).flatten = bytes) {pass : Nat}
    {bytes : Bytes} (call : EntryPoint)
    (hsize : catalog.bodySize name (some pass) (catalog.settle name (some pass) message) =
      bytes.length)
    (hwrite : catalog.writeBody name (some pass) (catalog.settle name (some pass) message) =
      bytes) :
    (catalog.enter name cut pass message call).answer = some (call.outcome bytes) := by
  have hframed : catalog.writeDelimited name (some pass) (catalog.settle name (some pass) message) =
      encodeLength bytes.length ++ bytes := by
    rw [writeDelimited, hsize, hwrite]
  cases call with
  | size => exact congrArg (fun size => some (Outcome.size size)) hsize
  | bytes => exact congrArg (fun bytes => some (Outcome.bytes bytes)) hwrite
  | frozen =>
      rw [EntryPoint.outcome, ← Buffer.put_withCapacity]
      simp only [Catalog.enter, Encoded.map, encodeFrozen, hsize, hwrite]
  | handedTo writer =>
      exact congrArg (fun bytes => some (Outcome.handedOn (writer.writeAll bytes))) hwrite
  | delimited => exact congrArg (fun bytes => some (Outcome.bytes bytes)) hframed
  | into sink =>
      rw [EntryPoint.outcome, ← sink.receive_eq hcut rfl]
      simp only [Catalog.enter, Encoded.map, encodeInto, hsize, hwrite]
      split <;> rfl
  | delimitedInto sink =>
      rw [EntryPoint.outcome, ← sink.receive_eq hcut (length_framed bytes)]
      simp only [Catalog.enter, Encoded.map, encodeDelimitedInto, hsize, hframed]
      split <;> rfl

/-- A call in a new pass has the outcome of the bytes of the message, and leaves behind a message
with the same bytes of which no other pass that is new has become an old one. -/
theorem Message.CachesUnused.enter (hnumbered : catalog.Numbered)
    (hoptions : catalog.OptionsSingular)
    (hmessage : message.Conforms catalog (fun _ message => message.unknown.Numbered)
      (catalog.schema name)) (hcut : ∀ bytes, (cut bytes).flatten = bytes) {pass : Nat}
    (hunused : message.CachesUnused catalog (some pass) (catalog.schema name))
    (call : EntryPoint) :
    let entered := catalog.enter name cut pass message call
    entered.answer = some (call.outcome (message.body catalog (catalog.schema name))) ∧
      entered.message.Conforms catalog (fun _ message => message.unknown.Numbered)
        (catalog.schema name) ∧
      entered.message.body catalog (catalog.schema name) =
        message.body catalog (catalog.schema name) ∧
      ∀ other, other ≠ pass → message.CachesUnused catalog (some other) (catalog.schema name) →
        entered.message.CachesUnused catalog (some other) (catalog.schema name) := by
  intro entered
  have hleft : entered.message = message.settle catalog (some pass) (catalog.schema name) :=
    Catalog.enter_message pass call
  have hcountable : message.Conforms catalog (Message.Countable catalog (some pass))
      (catalog.schema name) :=
    hmessage.combine hunused.exact fun _ _ hunknown hcache => ⟨hunknown, hcache⟩
  obtain ⟨hrecords, hsettled⟩ := hcountable.settled hnumbered hoptions
  have hbody := congrArg UnknownField.encodeAll hrecords
  have hexact := hsettled.exact hnumbered hoptions
  refine ⟨Catalog.enter_answer hcut call (hexact.size_eq.trans (congrArg List.length hbody))
    (hexact.write_eq.trans hbody), ?_, ?_, fun other hother hothers => ?_⟩
  · rw [hleft]
    exact hsettled.mono fun _ _ hcountable => hcountable.1
  · rw [hleft]
    exact hbody
  · rw [hleft]
    refine (hsettled.caches_iff (·.find? (some other) = none)).mpr ?_
    have hadvance : CachesAdvance (some pass) message.caches
        (message.settle catalog (some pass) (catalog.schema name)).caches :=
      CachesAdvance.inherits_settle.of_message hmessage
    exact hadvance.unused (fun hsame => hother (Option.some.inj hsame).symm)
      ((hmessage.caches_iff (·.find? (some other) = none)).mp hothers)

end Calls

namespace Catalog

variable {catalog : Catalog} {name : String} {message : Message}

/-- Let a message be measured and encoded any number of times in turn, as bytes of their own or into
sinks or for writers, each time in a new pass and on what the call before left behind. All calls
agree on its bytes and their number. A sink that has room for them takes them, in whatever writes,
and any other one is left as it was and told what it lacks. A writer takes them from the front, and
all of them exactly if it does not fail. -/
theorem entry_points_agree (hnumbered : catalog.Numbered) (hoptions : catalog.OptionsSingular)
    (hmessage : message.Conforms catalog (fun _ message => message.unknown.Numbered)
      (catalog.schema name)) {cut : Bytes → List Bytes}
    (hcut : ∀ bytes, (cut bytes).flatten = bytes)
    {calls : List (Nat × EntryPoint)} (hpasses : (calls.map Prod.fst).Nodup)
    (hunused : ∀ call ∈ calls,
      message.CachesUnused catalog (some call.1) (catalog.schema name)) :
    let bytes := message.body catalog (catalog.schema name)
    (encodeLength bytes.length ++ bytes).length = Varint.delimitedSize bytes.length ∧
      catalog.enterAll name cut message calls =
        calls.map (fun call => some (call.2.outcome bytes)) ∧
      ∀ writer : Writer, ∃ taken, taken <+: bytes ∧
        (writer.writeAll bytes).2.written = writer.written ++ taken ∧
        ((writer.writeAll bytes).1 = .ok () ↔ taken = bytes) ∧
        ((∀ answer ∈ writer.answers, answer.isFault = false) → taken = bytes) := by
  intro bytes
  refine ⟨length_framed bytes, ?_, fun writer => writer.exists_taken bytes⟩
  -- The message changes from call to call, but neither its bytes nor which passes are still new.
  suffices hturns : ∀ left : Message, left.Conforms catalog
      (fun _ message => message.unknown.Numbered) (catalog.schema name) →
      left.body catalog (catalog.schema name) = bytes →
      (∀ call ∈ calls, left.CachesUnused catalog (some call.1) (catalog.schema name)) →
      catalog.enterAll name cut left calls = calls.map fun call => some (call.2.outcome bytes) from
    hturns message hmessage rfl hunused
  clear hmessage hunused
  induction calls with
  | nil => exact fun _ _ _ _ => rfl
  | cons entered calls ih =>
      obtain ⟨pass, call⟩ := entered
      intro left hleft hbytes hunused
      obtain ⟨hnew, hpasses⟩ := List.nodup_cons.mp hpasses
      obtain ⟨hown, hothers⟩ := List.forall_mem_cons.mp hunused
      obtain ⟨hanswer, hconforms, hbody, hstays⟩ :=
        hown.enter hnumbered hoptions hleft hcut call
      rw [enterAll, List.map_cons, hanswer, hbytes]
      refine congrArg (_ :: ·) (ih hpasses _ hconforms (hbody.trans hbytes) fun other hother => ?_)
      refine hstays other.1 (fun hsame => hnew ?_) (hothers other hother)
      exact hsame ▸ List.mem_map_of_mem hother

/-- A message that a pass before has measured, encoded into a sink with room for all but its last
byte, into one with just the room for its bytes and their length, as bytes of their own, in a buffer
and for a writer that takes three bytes, is interrupted and takes the rest. -/
theorem cached_entry_points_agree :
    let messages : Catalog := ⟨[("Cached", Samples.cached)]⟩
    let message : Message :=
      .mk [.singular (.scalar (.string "ab")), .repeated []] .empty ⟨some ⟨3, 9⟩⟩
    let full : Sink := ⟨[255], 3⟩
    let exact : Sink := ⟨[255], 5⟩
    let writer : Writer := ⟨[255], [.takes 3, .interrupted]⟩
    messages.enterAll "Cached" (·.map fun byte => [byte]) message
        [(4, .into full), (5, .delimitedInto exact), (7, .size), (6, .bytes), (8, .frozen),
          (9, .handedTo writer)] =
      [some (.sink (.error ⟨4, 3⟩) ⟨[255], 3⟩), some (.sink (.ok ()) ⟨[255, 4, 10, 2, 97, 98], 0⟩),
        some (.size 4), some (.bytes [10, 2, 97, 98]), some (.buffer ⟨[10, 2, 97, 98], 4⟩),
        some (.handedOn (.ok (), ⟨[255, 10, 2, 97, 98], []⟩))] := by
  intro messages message full exact writer
  have hconforms : ∀ holds : MessageSchema → Message → Prop, holds Samples.cached message →
      message.Conforms messages holds (messages.schema "Cached") := by
    intro holds hholds
    exact .mk _ _ _ _ hholds (.cons _ _ _ _ (.singular _ _ _ _ _ _ (.scalar _ _ rfl))
      (.cons _ _ _ _ (.repeated _ _ _ _ [] fun _ => nofun) .nil))
  have hcut : ∀ bytes : Bytes, (bytes.map fun byte => [byte]).flatten = bytes := by
    intro bytes
    rw [← List.flatMap_def, List.flatMap_singleton']
  have hunused : ∀ call ∈ [(4, EntryPoint.into full), (5, .delimitedInto exact), (7, .size),
      (6, .bytes), (8, .frozen), (9, .handedTo writer)],
      message.CachesUnused messages (some call.1) (messages.schema "Cached") := by
    simp only [List.forall_mem_cons]
    exact ⟨hconforms _ rfl, hconforms _ rfl, hconforms _ rfl, hconforms _ rfl, hconforms _ rfl,
      hconforms _ rfl, fun _ => nofun⟩
  obtain ⟨-, hagree, -⟩ := entry_points_agree (by decide) (by decide)
    (hconforms (fun _ message => message.unknown.Numbered) fun _ => nofun) hcut (by decide) hunused
  rw [hagree]
  cbv

end Catalog

end ProtoWire
