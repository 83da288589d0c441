import ProtoWire.Proofs.Decoded
import ProtoWire.Proofs.Pieces
import ProtoWire.Stream

/-! # Messages from a stream

However a stream cuts its bytes into pieces, a read takes the same bytes from it. A message is
therefore read from a stream as it is decoded from a buffer, and the stream is left behind its last
byte; where bytes are missing, the stream's own end tells why.
-/

namespace ProtoWire

/-! ## Reads -/

/-- The outcome of reading on at the end of a stream: that of a closed stream, or its fault. -/
def StreamEnd.outcome {α : Type} (closed : Except DecodeError α) : StreamEnd → Except DecodeError α
  | .closed => closed
  | .broken fault => .error (.stream fault)

namespace Stream

variable {α β : Type} {stream : Stream}

/-- The bytes that a stream still delivers, whatever pieces they come in. -/
def content (stream : Stream) : Bytes := stream.chunks.content

/-- The stream behind its next `count` bytes. -/
def past (stream : Stream) (count : Nat) : Stream :=
  { stream with chunks := stream.chunks.advance count }

/-- The result of a read that has an outcome and leaves a stream. -/
def leaving (stream : Stream) : Except DecodeError α → EStateM.Result DecodeError Stream α
  | .ok value => .ok value stream
  | .error error => .error error stream

@[simp]
theorem content_past (count : Nat) : (stream.past count).content = stream.content.drop count :=
  stream.chunks.content_advance count

@[simp]
theorem past_past (count count' : Nat) :
    (stream.past count).past count' = stream.past (count + count') :=
  congrArg (fun chunks => { stream with chunks })
    (stream.chunks.advance_advance count count')

@[simp]
theorem past_zero : stream.past 0 = stream := by
  rw [past, Chunks.advance]

/-- What follows a read that came to the end of the stream has nothing left to read. -/
theorem bind_at_end {action : StreamM α} {next : α → StreamM β} {left : Stream} {ending : StreamEnd}
    {value : α} {outcome : Except DecodeError β}
    (hread : action stream = left.leaving (ending.outcome (.ok value)))
    (hnext : next value left = left.leaving outcome) :
    (action >>= next) stream = left.leaving (ending.outcome outcome) := by
  cases ending with
  | closed => exact (bind_ok hread next).trans hnext
  | broken fault => exact bind_error hread next

theorem bind_failed_at_end {action : StreamM α} {left : Stream} {ending : StreamEnd}
    {error : DecodeError} (hread : action stream = left.leaving (ending.outcome (.error error)))
    (next : α → StreamM β) :
    (action >>= next) stream = left.leaving (ending.outcome (.error error)) := by
  cases ending with
  | closed => exact bind_error hread next
  | broken fault => exact bind_error hread next

theorem readSome_eq {count : Nat} (hcount : 0 < count) (hleft : stream.content ≠ []) :
    ∃ piece rest, stream.content = piece ++ rest ∧ piece ≠ [] ∧ piece.length ≤ count ∧
      readSome count stream = .ok piece (stream.past piece.length) := by
  have hcurrent := Chunks.current_ne_nil hleft
  obtain ⟨rest, hrest⟩ := (List.take_prefix count _).trans stream.chunks.current_prefix
  refine ⟨stream.chunks.current.take count, rest, hrest.symm, ?_, List.length_take_le _ _, ?_⟩
  · have hpositive := List.length_pos_iff.mpr hcurrent
    rw [← List.length_pos_iff, List.length_take]
    omega
  · rw [readSome, List.length_take]
    cases hchunk : stream.chunks.current with
    | nil => exact absurd hchunk hcurrent
    | cons byte chunk => rfl

theorem readSome_at_end (count : Nat) (hend : stream.content = []) :
    readSome count stream = stream.leaving (stream.ending.outcome (.ok [])) := by
  have hprefix := stream.chunks.current_prefix
  rw [show stream.chunks.content = [] from hend, List.prefix_nil] at hprefix
  rw [readSome, hprefix]
  cases stream.ending <;> rfl

theorem readByte_eq {byte : UInt8} {rest : Bytes} (hcontent : stream.content = byte :: rest) :
    readByte stream = .ok byte (stream.past 1) := by
  obtain ⟨piece, rest', hsplit, hpiece, hlength, hread⟩ :=
    readSome_eq Nat.one_pos (hcontent ▸ List.cons_ne_nil byte rest)
  obtain ⟨first, rfl⟩ :=
    List.length_eq_one_iff.mp (Nat.le_antisymm hlength (List.length_pos_iff.mpr hpiece))
  obtain ⟨rfl, -⟩ := List.cons.inj (hcontent.symm.trans hsplit)
  exact bind_ok hread _

theorem readByte_at_end (hend : stream.content = []) :
    readByte stream =
      stream.leaving (stream.ending.outcome (.error (.stream .unexpectedEnd))) :=
  bind_at_end (readSome_at_end 1 hend) rfl

/-- Bytes with the high bit are only gathered. -/
theorem readLengthFrom_skip {front : Bytes} (hfront : ∀ byte ∈ front, ¬ byte < 0x80)
    (left : Nat) (scratch : Bytes) {rest : Bytes} (hcontent : stream.content = front ++ rest) :
    readLengthFrom (front.length + left) scratch stream =
      readLengthFrom left (scratch ++ front) (stream.past front.length) := by
  induction front generalizing scratch stream with
  | nil => rw [List.append_nil, List.length_nil, past_zero, Nat.zero_add]
  | cons byte front ih =>
      obtain ⟨hbyte, hfront⟩ := List.forall_mem_cons.mp hfront
      have hrest : (stream.past 1).content = front ++ rest := by
        rw [content_past, hcontent]
        rfl
      rw [List.length_cons, Nat.succ_add, readLengthFrom, bind_ok (readByte_eq hcontent),
        if_neg hbyte, ih hfront (scratch ++ [byte]) hrest, past_past, List.append_assoc,
        Nat.add_comm 1]
      rfl

/-- A length is read from a stream as from a buffer. -/
theorem readLength_eq {value : UInt64} {count : Nat}
    (hdecode : Varint.decode stream.content = .ok (value, count)) :
    readLength stream = .ok value (stream.past count) := by
  obtain ⟨front, last, rest, hcontent, hfront, hlast, rfl, hlength, hvalue⟩ :=
    Varint.decode_split hdecode
  obtain ⟨left, hleft⟩ := Nat.exists_eq_add_of_lt hlength
  have hlastLeft : (stream.past front.length).content = last :: rest := by
    rw [content_past, hcontent, List.drop_left]
  rw [readLength, hleft, Nat.add_assoc, readLengthFrom_skip hfront _ [] hcontent, readLengthFrom,
    bind_ok (readByte_eq hlastLeft), if_pos hlast, List.nil_append, hvalue, past_past]
  rfl

/-- Ten bytes with the high bit are no length. -/
theorem readLength_malformed (hlong : Varint.maxLength ≤ stream.content.length)
    (hhigh : ∀ byte ∈ stream.content.take Varint.maxLength, ¬ byte < 0x80) :
    readLength stream = .error .malformedVarint (stream.past Varint.maxLength) := by
  have hlength : (stream.content.take Varint.maxLength).length = Varint.maxLength := by
    rw [List.length_take, Nat.min_eq_left hlong]
  have hskip := readLengthFrom_skip hhigh 0 [] (List.take_append_drop _ _).symm
  rw [hlength] at hskip
  exact hskip

/-- The stream ends before the length does. -/
theorem readLength_at_end (hshort : stream.content.length < Varint.maxLength)
    (hhigh : ∀ byte ∈ stream.content, ¬ byte < 0x80) :
    readLength stream = (stream.past stream.content.length).leaving
      (stream.ending.outcome (.error (.stream .unexpectedEnd))) := by
  obtain ⟨left, hleft⟩ := Nat.exists_eq_add_of_lt hshort
  have hend : (stream.past stream.content.length).content = [] := by
    rw [content_past, List.drop_length]
  rw [readLength, hleft, Nat.add_assoc, readLengthFrom_skip hhigh _ [] (List.append_nil _).symm,
    readLengthFrom]
  exact bind_failed_at_end (readByte_at_end hend) _

/-- Bytes are taken up to the number asked for or to the end of the stream, whichever is first. -/
theorem takeFrom_eq {fuel : Nat} (hfuel : stream.content.length < fuel) (count : Nat)
    (taken : Bytes) :
    takeFrom fuel count taken stream =
      if count ≤ stream.content.length then
        .ok (taken ++ stream.content.take count) (stream.past count)
      else (stream.past stream.content.length).leaving
        (stream.ending.outcome (.ok (taken ++ stream.content))) := by
  induction fuel generalizing stream count taken with
  | zero => exact absurd hfuel (Nat.not_lt_zero _)
  | succ fuel ih =>
      rw [takeFrom]
      by_cases hcount : count = 0
      · rw [if_pos hcount, hcount, if_pos (Nat.zero_le _), List.take_zero, List.append_nil,
          past_zero]
        rfl
      rw [if_neg hcount]
      by_cases hend : stream.content = []
      · rw [if_neg (by simp [hend, hcount]), hend, List.length_nil, past_zero, List.append_nil]
        exact bind_at_end (readSome_at_end count hend) rfl
      · obtain ⟨piece, rest, hsplit, hpiece, hlength, hread⟩ :=
          readSome_eq (Nat.pos_of_ne_zero hcount) hend
        obtain ⟨more, rfl⟩ := Nat.exists_eq_add_of_le hlength
        have hrest : (stream.past piece.length).content = rest := by
          rw [content_past, hsplit, List.drop_left]
        have hpositive := List.length_pos_iff.mpr hpiece
        rw [hsplit, List.length_append] at hfuel ⊢
        rw [bind_ok hread]
        cases piece with
        | nil => exact absurd rfl hpiece
        | cons byte piece =>
            dsimp only
            -- The piece holds at least one byte, so that the fuel lasts for what is left behind it.
            rw [ih (by rw [hrest]; omega), hrest, Nat.add_sub_cancel_left, past_past, past_past,
              List.append_assoc, List.append_assoc, List.take_length_add_append]
            simp only [Nat.add_le_add_iff_left]
            rfl

theorem takeUpTo_eq (stream : Stream) (count : Nat) :
    takeUpTo count stream =
      if count ≤ stream.content.length then .ok (stream.content.take count) (stream.past count)
      else (stream.past stream.content.length).leaving
        (stream.ending.outcome (.ok stream.content)) :=
  takeFrom_eq (Nat.lt_succ_self _) count []

end Stream

/-! ## Messages -/

namespace Catalog

variable {catalog : Catalog} {name : String} {config : ReaderConfig} {stream : Stream}

theorem decodeTaken_eq (bytes : Bytes) :
    catalog.decodeTaken name config bytes stream =
      stream.leaving (catalog.decode name bytes config) := by
  rw [decodeTaken]
  cases catalog.decode name bytes config <;> rfl

theorem decodeNext_cut (hshort : stream.content.length < Varint.maxLength)
    (hhigh : ∀ byte ∈ stream.content, ¬ byte < 0x80) :
    catalog.decodeNext name config stream = (stream.past stream.content.length).leaving
      (stream.ending.outcome (.error (.stream .unexpectedEnd))) :=
  Stream.bind_failed_at_end (Stream.readLength_at_end hshort hhigh) _

theorem decodeNext_at_end (hend : stream.content = []) :
    catalog.decodeNext name config stream =
      stream.leaving (stream.ending.outcome (.error (.stream .unexpectedEnd))) := by
  have hcut : catalog.decodeNext name config stream = _ :=
    decodeNext_cut (by rw [hend]; decide) (by rw [hend]; exact fun _ => nofun)
  rwa [hend, List.length_nil, Stream.past_zero] at hcut

/-- The message behind a length is refused, missed or decoded. -/
theorem decodeNext_eq {size : UInt64} {count : Nat}
    (hdecode : Varint.decode stream.content = .ok (size, count)) :
    catalog.decodeNext name config stream =
      if config.maxMessageSize < size.toNat then
        .error (.messageTooLarge size.toNat config.maxMessageSize) (stream.past count)
      else if stream.content.length < count + size.toNat then
        (stream.past stream.content.length).leaving (stream.ending.outcome
          (.error (.truncated size.toNat (stream.content.length - count))))
      else (stream.past (count + size.toNat)).leaving
        (catalog.decode name ((stream.content.drop count).take size.toNat) config) := by
  have hcount := (Varint.decode_count hdecode).2
  rw [decodeNext, bind_ok (Stream.readLength_eq hdecode)]
  dsimp only
  by_cases hlarge : config.maxMessageSize < size.toNat
  · rw [if_pos hlarge, if_pos hlarge]
    rfl
  rw [if_neg hlarge, if_neg hlarge]
  have hleft : (stream.past count).content.length = stream.content.length - count := by
    rw [Stream.content_past, List.length_drop]
  have htake := (stream.past count).takeUpTo_eq size.toNat
  by_cases hshort : stream.content.length < count + size.toNat
  · rw [if_neg (by omega), hleft, Stream.past_past, Nat.add_sub_cancel' hcount] at htake
    rw [if_pos hshort]
    refine Stream.bind_at_end htake ?_
    rw [hleft, if_pos (by omega)]
    rfl
  · rw [if_pos (by omega), Stream.past_past, Stream.content_past] at htake
    rw [if_neg hshort, bind_ok htake, List.length_take, List.length_drop, if_neg (by omega),
      decodeTaken_eq]

/-- What is left of a stream is refused or decoded. -/
theorem decodeRest_eq :
    catalog.decodeRest name config stream =
      if stream.content.length ≤ config.maxMessageSize then
        (stream.past stream.content.length).leaving
          (stream.ending.outcome (catalog.decode name stream.content config))
      else .error (.messageTooLarge (config.maxMessageSize + 1) config.maxMessageSize)
        (stream.past (config.maxMessageSize + 1)) := by
  have htake := stream.takeUpTo_eq (config.maxMessageSize + 1)
  rw [decodeRest]
  by_cases hfits : stream.content.length ≤ config.maxMessageSize
  · rw [if_neg (by omega)] at htake
    rw [if_pos hfits]
    refine Stream.bind_at_end htake ?_
    rw [if_neg (by omega)]
    exact decodeTaken_eq stream.content
  · rw [if_pos (by omega)] at htake
    rw [if_neg hfits, bind_ok htake, List.length_take, Nat.min_eq_left (by omega),
      if_pos (Nat.lt_succ_self _)]
    rfl

/-- A stream is read as a buffer is, however it comes in pieces and wherever it breaks. A length is
refused after ten bytes, and a message that is too large after its length, or when all that is left
of the stream is the message, after one byte too many. Where the stream ends first, the bytes that
there are have been taken, and a fault of the stream is what the read fails with. Otherwise the
message is decoded from its own bytes, and no others are taken. -/
theorem decode_stream (catalog : Catalog) (name : String) (config : ReaderConfig)
    (stream : Stream) :
    (Varint.maxLength ≤ stream.content.length →
      (∀ byte ∈ stream.content.take Varint.maxLength, 0x80 ≤ byte) →
        catalog.decodeNext name config stream =
          .error .malformedVarint (stream.past Varint.maxLength)) ∧
    (stream.content.length < Varint.maxLength → (∀ byte ∈ stream.content, 0x80 ≤ byte) →
      catalog.decodeNext name config stream = (stream.past stream.content.length).leaving
        (stream.ending.outcome (.error (.stream .unexpectedEnd)))) ∧
    (∀ front last rest, stream.content = front ++ last :: rest →
      front.length < Varint.maxLength → (∀ byte ∈ front, 0x80 ≤ byte) → last < 0x80 →
        ∃ size, Varint.decode (front ++ [last]) = .ok (size, front.length + 1) ∧
          catalog.decodeNext name config stream =
            if config.maxMessageSize < size.toNat then
              .error (.messageTooLarge size.toNat config.maxMessageSize)
                (stream.past (front.length + 1))
            else if rest.length < size.toNat then
              (stream.past stream.content.length).leaving
                (stream.ending.outcome (.error (.truncated size.toNat rest.length)))
            else (stream.past (front.length + 1 + size.toNat)).leaving
              (catalog.decode name (rest.take size.toNat) config)) ∧
    catalog.decodeRest name config stream =
      if stream.content.length ≤ config.maxMessageSize then
        (stream.past stream.content.length).leaving
          (stream.ending.outcome (catalog.decode name stream.content config))
      else .error (.messageTooLarge (config.maxMessageSize + 1) config.maxMessageSize)
        (stream.past (config.maxMessageSize + 1)) := by
  refine ⟨?_, ?_, ?_, decodeRest_eq⟩
  · intro hlong hhigh
    exact bind_error (Stream.readLength_malformed hlong fun byte hbyte =>
      UInt8.not_lt.mpr (hhigh byte hbyte)) _
  · intro hshort hhigh
    exact decodeNext_cut hshort fun byte hbyte => UInt8.not_lt.mpr (hhigh byte hbyte)
  · intro front last rest hcontent hlength hhigh hlast
    have hfront : ∀ byte ∈ front, ¬ byte < 0x80 := fun byte hbyte =>
      UInt8.not_lt.mpr (hhigh byte hbyte)
    obtain ⟨size, hdecode⟩ := Varint.decode_terminated hfront hlast hlength
    have hlengths : stream.content.length = front.length + 1 + rest.length := by
      rw [hcontent, List.length_append, List.length_cons]
      omega
    have hrest : stream.content.drop (front.length + 1) = rest := by
      rw [hcontent, List.append_cons, List.drop_left' (by simp)]
    refine ⟨size, hdecode [], ?_⟩
    rw [decodeNext_eq (hcontent ▸ hdecode rest), hrest, hlengths]
    simp only [Nat.add_lt_add_iff_left, Nat.add_sub_cancel_left]

/-- Messages of which the lengths come in pieces: one never ends, one is cut off by a fault, and one
is longer than it needs to be. -/
theorem header_decoded_from_pieces :
    let headers : Catalog := ⟨[("Header", Samples.header)]⟩
    let config : ReaderConfig := { maxMessageSize := 2 }
    let endless : Stream := ⟨[List.replicate 4 0xFF, [], List.replicate 7 0x80], [], .closed⟩
    let cut : Stream := ⟨[[0x80], [0x80]], [], .broken .connectionReset⟩
    let next : Stream := ⟨[[0x82], [], [0x00, 0x08], [0x07, 0x02]], [], .closed⟩
    headers.decodeNext "Header" config endless = .error .malformedVarint (endless.past 10) ∧
      headers.decodeNext "Header" config cut =
        .error (.stream .connectionReset) (cut.past 2) ∧
      headers.decodeNext "Header" config next =
        .ok (.mk [.singular (.scalar (.uint32 7)), .singular (.scalar (.string ""))] .empty .empty)
          (next.past 4) ∧
      (next.past 4).content = [0x02] := by
  intro headers config endless cut next
  have hendless := (decode_stream headers "Header" config endless).1 (by decide +kernel)
    (by decide +kernel)
  have hcut := (decode_stream headers "Header" config cut).2.1 (by decide +kernel)
    (by decide +kernel)
  obtain ⟨size, hsize, hnext⟩ := (decode_stream headers "Header" config next).2.2.1 [0x82] 0x00
    [0x08, 0x07, 0x02] (by decide +kernel) (by decide +kernel) (by decide +kernel)
      (by decide +kernel)
  have htwo : Varint.decode ([0x82] ++ [0x00]) = .ok (2, 2) := by decide +kernel
  obtain ⟨rfl, -⟩ := Prod.mk.inj (Except.ok.inj (hsize.symm.trans htwo))
  refine ⟨hendless, hcut, hnext.trans ?_, by decide +kernel⟩
  have hdecode : headers.decode "Header" [0x08, 0x07] config =
      .ok (.mk [.singular (.scalar (.uint32 7)), .singular (.scalar (.string ""))]
        .empty .empty) := by
    cbv
  rw [if_neg (by decide), if_neg (by decide)]
  exact congrArg (next.past 4).leaving hdecode

end Catalog

/-! ## Framed messages -/

/-- A message sent with its length in front: the pass that it is encoded in, the room that there is
for it and the bytes that are written. -/
structure Sending where
  message : Message
  pass : Nat
  room : Nat
  frame : Bytes

namespace Sending

/-- A message that was written and that its receiver accepts: it meets what a round trip asks for and
is neither too large nor nested too deep. -/
structure Acceptable (catalog : Catalog) (name : String) (config : ReaderConfig)
    (sending : Sending) : Prop where
  unknownApart : sending.message.Conforms catalog
    (fun schema message => message.UnknownApart schema) (catalog.schema name)
  cachesUnused : sending.message.CachesUnused catalog (some sending.pass) (catalog.schema name)
  written : (catalog.encodeDelimitedInto name sending.pass sending.room sending.message).answer =
    .ok sending.frame
  length_lt : (catalog.encode name sending.pass sending.message).answer.length < addressSpace
  length_le : (catalog.encode name sending.pass sending.message).answer.length ≤
    config.maxMessageSize
  depth_le : sending.message.depth catalog (catalog.schema name) ≤ config.recursionLimit

variable {catalog : Catalog} {name : String} {config : ReaderConfig} {sending : Sending}

/-- What is written is the body of the message with its length in front. -/
theorem Acceptable.frame_eq (hnumbered : catalog.Numbered) (hoptions : catalog.OptionsSingular)
    (hsending : sending.Acceptable catalog name config) :
    sending.frame =
      Varint.delimited (catalog.encode name sending.pass sending.message).answer := by
  obtain ⟨_, hexact, _, _⟩ := hsending.cachesUnused.exact.settled hnumbered hoptions
    (hsending.unknownApart.mono fun _ _ hunknown => hunknown.numbered)
  have hwritten := hsending.written
  rw [Catalog.encodeDelimitedInto] at hwritten
  split at hwritten
  · cases hwritten
  · have hsize := hexact.size_eq.trans (congrArg List.length hexact.write_eq.symm)
    exact (Except.ok.inj hwritten).symm.trans
      (congrArg (fun size => encodeLength size ++ _) hsize)

/-- The message is read back from its frame as it is received, and the stream is left behind the
frame. -/
theorem Acceptable.decodeNext_eq (hnumbered : catalog.Numbered)
    (hoptions : catalog.OptionsSingular) (hdefaulted : catalog.Defaulted)
    (hsending : sending.Acceptable catalog name config) {stream : Stream} {rest : Bytes}
    (hcontent : stream.content = sending.frame ++ rest) :
    catalog.decodeNext name config stream =
      .ok (sending.message.asReceived catalog (catalog.schema name))
        (stream.past sending.frame.length) := by
  have hframe := hsending.frame_eq hnumbered hoptions
  have hbody := hsending.cachesUnused.encode_eq hnumbered hoptions
    (hsending.unknownApart.mono fun _ _ hunknown => hunknown.numbered)
  have hlength := hsending.length_lt
  have hsize := hsending.length_le
  rw [hbody] at hframe hlength hsize
  have hdecode := (Catalog.decode_eq_ok_iff hnumbered).mpr
    ((hsending.unknownApart.restored hnumbered hoptions hdefaulted).message_eq
      hsending.depth_le hlength)
  generalize sending.message.body catalog (catalog.schema name) = body at hframe hlength hsize hdecode
  have hvalue : (UInt64.ofNat body.length).toNat = body.length :=
    UInt64.toNat_ofNat_of_lt' hlength
  generalize hlead : Varint.encode (UInt64.ofNat body.length) = lead at hframe
  have hsplit : stream.content = lead ++ (body ++ rest) := by
    rw [hcontent, hframe, Varint.delimited, hlead, List.append_assoc]
  have hprefix : Varint.decode stream.content = .ok (UInt64.ofNat body.length, lead.length) := by
    rw [hsplit, ← hlead]
    exact Varint.decode_encode_append _ _
  have hfits : ¬ stream.content.length < lead.length + body.length := by
    rw [hsplit, List.length_append, List.length_append]
    omega
  rw [Catalog.decodeNext_eq hprefix, hvalue, if_neg (not_lt.mpr hsize), if_neg hfits, hsplit,
    List.drop_left, List.take_left, hdecode, hframe, Varint.delimited, hlead, List.length_append]
  rfl

end Sending

namespace Catalog

/-- Reads messages from a stream one after the other, each after its length. -/
def decodeMany (catalog : Catalog) (name : String) (config : ReaderConfig) :
    (calls : Nat) → StreamM (List Message)
  | 0 => return []
  | calls + 1 => do
      let message ← catalog.decodeNext name config
      return message :: (← catalog.decodeMany name config calls)

variable {catalog : Catalog} {name : String} {config : ReaderConfig}

/-- Whatever follows the frames, the messages in them are read one after the other. -/
theorem decodeMany_frames (hnumbered : catalog.Numbered) (hoptions : catalog.OptionsSingular)
    (hdefaulted : catalog.Defaulted) {sendings : List Sending}
    (hsendings : ∀ sending ∈ sendings, sending.Acceptable catalog name config) {stream : Stream}
    {rest : Bytes} (hcontent : stream.content = sendings.flatMap (·.frame) ++ rest) :
    catalog.decodeMany name config sendings.length stream =
      .ok (sendings.map (·.message.asReceived catalog (catalog.schema name)))
        (stream.past (sendings.flatMap (·.frame)).length) := by
  induction sendings generalizing stream with
  | nil => exact congrArg (EStateM.Result.ok []) Stream.past_zero.symm
  | cons sending sendings ih =>
      obtain ⟨hsending, hsendings⟩ := List.forall_mem_cons.mp hsendings
      rw [List.flatMap_cons, List.append_assoc] at hcontent
      have hnext := hsending.decodeNext_eq hnumbered hoptions hdefaulted hcontent
      have hrest : (stream.past sending.frame.length).content =
          sendings.flatMap (·.frame) ++ rest := by
        rw [Stream.content_past, hcontent, List.drop_left]
      rw [List.length_cons, decodeMany, bind_ok hnext, bind_ok (ih hsendings hrest),
        Stream.past_past, List.flatMap_cons, List.length_append]
      rfl

/-- Let messages be written one after the other, each with its length in front, and the bytes be
sent through a stream that delivers them in any pieces and is then closed. Then every number of
calls gives that many messages, in order and as they are received, and leaves the stream exactly
behind their frames. One call more than there are messages comes upon the end of the stream. -/
theorem decodeMany_sent (hnumbered : catalog.Numbered) (hoptions : catalog.OptionsSingular)
    (hdefaulted : catalog.Defaulted) {sendings : List Sending}
    (hsendings : ∀ sending ∈ sendings, sending.Acceptable catalog name config) {stream : Stream}
    (hcontent : stream.content = sendings.flatMap (·.frame)) (hclosed : stream.ending = .closed) :
    (∀ calls ≤ sendings.length,
      catalog.decodeMany name config calls stream =
        .ok ((sendings.take calls).map (·.message.asReceived catalog (catalog.schema name)))
          (stream.past ((sendings.take calls).flatMap (·.frame)).length) ∧
      (stream.past ((sendings.take calls).flatMap (·.frame)).length).content =
        (sendings.drop calls).flatMap (·.frame)) ∧
    catalog.decodeNext name config (stream.past (sendings.flatMap (·.frame)).length) =
      .error (.stream .unexpectedEnd) (stream.past (sendings.flatMap (·.frame)).length) := by
  refine ⟨fun calls hcalls => ?_, ?_⟩
  · have hsplit : stream.content =
        (sendings.take calls).flatMap (·.frame) ++ (sendings.drop calls).flatMap (·.frame) := by
      rw [hcontent, ← List.flatMap_append, List.take_append_drop]
    have hread := decodeMany_frames hnumbered hoptions hdefaulted
      (fun sending hsending => hsendings sending (List.mem_of_mem_take hsending)) hsplit
    rw [List.length_take, Nat.min_eq_left hcalls] at hread
    refine ⟨hread, ?_⟩
    rw [Stream.content_past, hsplit, List.drop_left]
  · have hend : (stream.past (sendings.flatMap (·.frame)).length).content = [] := by
      rw [Stream.content_past, hcontent, List.drop_length]
    rw [decodeNext_at_end hend, Stream.past, hclosed]
    rfl

/-- An empty message, one with another in it and one whose length takes two bytes, delivered two
bytes at a time. -/
theorem cached_decodeMany_sent :
    let messages : Catalog := ⟨[("Cached", Samples.cached)]⟩
    let config : ReaderConfig := { recursionLimit := 1, maxMessageSize := 133 }
    let cached (label : String) (children : List Value) (cache : SizeCache) : Message :=
      .mk [.singular (.scalar (.string label)), .repeated children] .empty cache
    let long := String.ofList (List.replicate 130 'a')
    let sendings : List Sending := [
      ⟨cached "" [] .empty, 4, 1, [0x00]⟩,
      ⟨cached "b" [.message (cached "" [] ⟨some ⟨3, 9⟩⟩)] .empty, 5, 100, [5, 10, 1, 98, 18, 0]⟩,
      ⟨cached long [] ⟨some ⟨5, 0⟩⟩, 6, 135,
        [0x85, 0x01, 10, 0x82, 0x01] ++ List.replicate 130 97⟩]
    let stream : Stream := .ofBytes (sendings.flatMap (·.frame)) (some 2) none
    messages.decodeMany "Cached" config 3 stream =
        .ok [cached "" [] .empty, cached "b" [.message (cached "" [] .empty)] .empty,
          cached long [] .empty] (stream.past 142) ∧
      messages.decodeNext "Cached" config (stream.past 142) =
        .error (.stream .unexpectedEnd) (stream.past 142) := by
  intro messages config cached long sendings stream
  have hconforms : ∀ (holds : MessageSchema → Message → Prop) (label : String)
      (children : List Value) (cache : SizeCache),
      holds Samples.cached (cached label children cache) →
      (∀ value ∈ children, value.Conforms messages holds (.message "Cached")) →
        (cached label children cache).Conforms messages holds (messages.schema "Cached") := by
    intro holds label children cache hmessage hchildren
    exact .mk _ _ _ _ hmessage (.cons _ _ _ _ (.singular _ _ _ _ _ _ (.scalar _ _ rfl))
      (.cons _ _ _ _ (.repeated _ _ _ _ _ hchildren) .nil))
  have hnone : ∀ holds : MessageSchema → Message → Prop,
      ∀ value ∈ ([] : List Value), value.Conforms messages holds (.message "Cached") :=
    fun _ _ => nofun
  have hchild : ∀ holds : MessageSchema → Message → Prop,
      holds Samples.cached (cached "" [] ⟨some ⟨3, 9⟩⟩) →
        ∀ value ∈ [Value.message (cached "" [] ⟨some ⟨3, 9⟩⟩)],
          value.Conforms messages holds (.message "Cached") := by
    intro holds hholds value hvalue
    rw [List.mem_singleton.mp hvalue]
    exact .message "Cached" _ (hconforms holds _ _ _ hholds (hnone holds))
  have hsendings : ∀ sending ∈ sendings, sending.Acceptable messages "Cached" config := by
    refine List.forall_mem_cons.mpr ⟨?_, List.forall_mem_cons.mpr ⟨?_,
      List.forall_mem_singleton.mpr ?_⟩⟩
    · exact ⟨hconforms _ _ _ _ unknownApart_empty (hnone _), hconforms _ _ _ _ rfl (hnone _),
        by decide +kernel, by decide +kernel, by decide +kernel, by decide +kernel⟩
    · exact ⟨hconforms _ _ _ _ unknownApart_empty (hchild _ unknownApart_empty),
        hconforms _ _ _ _ rfl (hchild _ rfl),
        by decide +kernel, by decide +kernel, by decide +kernel, by decide +kernel⟩
    · exact ⟨hconforms _ _ _ _ unknownApart_empty (hnone _), hconforms _ _ _ _ rfl (hnone _),
        by decide +kernel, by decide +kernel, by decide +kernel, by decide +kernel⟩
  have hcontent : stream.content = sendings.flatMap (·.frame) := by decide +kernel
  obtain ⟨hcalls, hlast⟩ := decodeMany_sent (by decide) (by decide) (by decide) hsendings hcontent rfl
  exact ⟨(hcalls 3 (by decide)).1, hlast⟩

end Catalog

end ProtoWire
