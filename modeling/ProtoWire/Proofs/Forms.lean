import ProtoWire.Proofs.Sessions

/-! # Held forms

A message is measured, written and compared by the wire forms of its references. So it answers every
call as the message does that holds all of them in their wire form, and messages that differ in the
forms held alone cannot be told apart.
-/

namespace ProtoWire

/-! ## Wire forms -/

mutual

/-- The value with every reference in its wire form. -/
def Value.inWireForm : Value → Value
  | .scalar scalar => .scalar scalar
  | .enumeration value => .enumeration value
  | .message message => .message message.inWireForm
  | .absent => .absent
  | .present value => .present value.inWireForm
  | .reference _ wire => .reference .wire wire.inWireForm

/-- The message with every reference in its wire form, its remembered sizes unchanged. -/
def Message.inWireForm : Message → Message
  | .mk contents unknown cache => .mk (contentsInWireForm contents) unknown cache

/-- The contents with every reference in its wire form. -/
def contentsInWireForm : List Content → List Content
  | [] => []
  | content :: rest => content.inWireForm :: contentsInWireForm rest

/-- The content with every reference in its wire form. -/
def Content.inWireForm : Content → Content
  | .singular value => .singular value.inWireForm
  | .repeated values => .repeated (valuesInWireForm values)
  | .mapping entries => .mapping (entriesInWireForm entries)
  | .unset => .unset
  | .chosen member value => .chosen member value.inWireForm

/-- The values with every reference in its wire form. -/
def valuesInWireForm : List Value → List Value
  | [] => []
  | value :: rest => value.inWireForm :: valuesInWireForm rest

/-- The entries of a map with every reference in its wire form. -/
def entriesInWireForm : List (Scalar × Value) → List (Scalar × Value)
  | [] => []
  | (key, value) :: rest => (key, value.inWireForm) :: entriesInWireForm rest

end

theorem valuesInWireForm_eq (values : List Value) :
    valuesInWireForm values = values.map Value.inWireForm := by
  induction values with
  | nil => rfl
  | cons value rest ih => rw [valuesInWireForm, ih, List.map_cons]

section Codec

variable {catalog : Catalog} {pass : Pass}

/-! ## Sizes -/

-- By recursion on the value, as in the definitions. Where the type does not fit, both sides are the
-- same without a look at the parts.
mutual

theorem Value.size_inWireForm : ∀ (type : ValueType) (value : Value),
    value.inWireForm.size catalog pass type = value.size catalog pass type
  | _, .scalar _ | _, .enumeration _ | _, .absent => rfl
  | type, .message message => by
      cases type with
      | message name => simp only [Value.inWireForm, Value.size, message.bodySize_inWireForm]
      | _ => rfl
  | type, .present value => by
      cases type with
      | option inner => exact value.size_inWireForm inner
      | _ => rfl
  | type, .reference held wire => by
      cases type with
      | converted converter inner => exact wire.size_inWireForm inner
      | _ => rfl

theorem Value.isDefault_inWireForm : ∀ (type : ValueType) (value : Value),
    value.inWireForm.isDefault catalog pass type = value.isDefault catalog pass type
  | _, .scalar _ | _, .enumeration _ | _, .absent => rfl
  | type, .present value => by cases type <;> rfl
  | type, .message message => by
      cases type with
      | message name =>
          simp only [Value.inWireForm, Value.isDefault, message.bodySize_inWireForm]
      | _ => rfl
  | type, .reference held wire => by
      cases type with
      | converted converter inner => exact wire.isDefault_inWireForm inner
      | _ => rfl

theorem Message.bodySize_inWireForm : ∀ (message : Message) (schema : MessageSchema),
    message.inWireForm.bodySize catalog pass schema = message.bodySize catalog pass schema
  | .mk contents unknown cache, schema => by
      rw [Message.inWireForm, Message.bodySize, Message.bodySize, contentsSize_inWireForm]

theorem contentsSize_inWireForm : ∀ (dialect : Dialect) (entries : List Entry)
    (contents : List Content),
    contentsSize catalog pass dialect entries (contentsInWireForm contents) =
      contentsSize catalog pass dialect entries contents
  | _, [], [] | _, [], _ :: _ | _, _ :: _, [] => rfl
  | dialect, entry :: entries, content :: contents => by
      rw [contentsInWireForm, contentsSize, contentsSize, content.size_inWireForm,
        contentsSize_inWireForm]

theorem Content.size_inWireForm : ∀ (dialect : Dialect) (entry : Entry) (content : Content),
    content.inWireForm.size catalog pass dialect entry = content.size catalog pass dialect entry
  | _, _, .unset => rfl
  | dialect, entry, .singular value => by
      cases entry with
      | singular =>
          simp only [Content.inWireForm, Content.size, value.isDefault_inWireForm,
            value.size_inWireForm]
      | _ => rfl
  | dialect, entry, .repeated values => by
      cases entry with
      | repeated =>
          rw [Content.inWireForm, Content.size, Content.size, valuesSize_inWireForm,
            valuesInWireForm_eq, List.isEmpty_map, List.length_map]
      | _ => rfl
  | dialect, entry, .mapping entries => by
      cases entry with
      | map => exact mapEntriesSize_inWireForm _ _ entries
      | _ => rfl
  | dialect, entry, .chosen place value => by
      cases entry with
      | oneof => simp only [Content.inWireForm, Content.size, value.size_inWireForm]
      | _ => rfl

theorem valuesSize_inWireForm : ∀ (type : ValueType) (values : List Value),
    valuesSize catalog pass type (valuesInWireForm values) = valuesSize catalog pass type values
  | _, [] => rfl
  | type, value :: values => by
      rw [valuesInWireForm, valuesSize, valuesSize, value.size_inWireForm, valuesSize_inWireForm]

theorem mapEntriesSize_inWireForm : ∀ (number : UInt32) (type : ValueType)
    (entries : List (Scalar × Value)),
    mapEntriesSize catalog pass number type (entriesInWireForm entries) =
      mapEntriesSize catalog pass number type entries
  | _, _, [] => rfl
  | number, type, (key, value) :: entries => by
      rw [entriesInWireForm, mapEntriesSize, mapEntriesSize, value.size_inWireForm,
        mapEntriesSize_inWireForm]

end

/-! ## Bytes -/

mutual

theorem Value.write_inWireForm : ∀ (type : ValueType) (value : Value),
    value.inWireForm.write catalog pass type = value.write catalog pass type
  | _, .scalar _ | _, .enumeration _ | _, .absent => rfl
  | type, .message message => by
      cases type with
      | message name =>
          simp only [Value.inWireForm, Value.write, message.bodySize_inWireForm,
            message.writeBody_inWireForm]
      | _ => rfl
  | type, .present value => by
      cases type with
      | option inner => exact value.write_inWireForm inner
      | _ => rfl
  | type, .reference held wire => by
      cases type with
      | converted converter inner => exact wire.write_inWireForm inner
      | _ => rfl

theorem Message.writeBody_inWireForm : ∀ (message : Message) (schema : MessageSchema),
    message.inWireForm.writeBody catalog pass schema = message.writeBody catalog pass schema
  | .mk contents unknown cache, schema => by
      rw [Message.inWireForm, Message.writeBody, Message.writeBody, writeContents_inWireForm]

theorem writeContents_inWireForm : ∀ (dialect : Dialect) (entries : List Entry)
    (contents : List Content),
    writeContents catalog pass dialect entries (contentsInWireForm contents) =
      writeContents catalog pass dialect entries contents
  | _, [], [] | _, [], _ :: _ | _, _ :: _, [] => rfl
  | dialect, entry :: entries, content :: contents => by
      rw [contentsInWireForm, writeContents, writeContents, content.write_inWireForm,
        writeContents_inWireForm]

theorem Content.write_inWireForm : ∀ (dialect : Dialect) (entry : Entry) (content : Content),
    content.inWireForm.write catalog pass dialect entry = content.write catalog pass dialect entry
  | _, _, .unset => rfl
  | dialect, entry, .singular value => by
      cases entry with
      | singular =>
          simp only [Content.inWireForm, Content.write, value.isDefault_inWireForm,
            value.write_inWireForm]
      | _ => rfl
  | dialect, entry, .repeated values => by
      cases entry with
      | repeated =>
          rw [Content.inWireForm, Content.write, Content.write, valuesSize_inWireForm,
            writePayloads_inWireForm, writeElements_inWireForm, valuesInWireForm_eq,
            List.isEmpty_map, List.length_map]
      | _ => rfl
  | dialect, entry, .mapping entries => by
      cases entry with
      | map => exact writeMapEntries_inWireForm _ _ entries
      | _ => rfl
  | dialect, entry, .chosen place value => by
      cases entry with
      | oneof => simp only [Content.inWireForm, Content.write, value.write_inWireForm]
      | _ => rfl

theorem writePayloads_inWireForm : ∀ (type : ValueType) (values : List Value),
    writePayloads catalog pass type (valuesInWireForm values) =
      writePayloads catalog pass type values
  | _, [] => rfl
  | type, value :: values => by
      rw [valuesInWireForm, writePayloads, writePayloads, value.write_inWireForm,
        writePayloads_inWireForm]

theorem writeElements_inWireForm : ∀ (number : UInt32) (type : ValueType) (values : List Value),
    writeElements catalog pass number type (valuesInWireForm values) =
      writeElements catalog pass number type values
  | _, _, [] => rfl
  | number, type, value :: values => by
      rw [valuesInWireForm, writeElements, writeElements, value.write_inWireForm,
        writeElements_inWireForm]

theorem writeMapEntries_inWireForm : ∀ (number : UInt32) (type : ValueType)
    (entries : List (Scalar × Value)),
    writeMapEntries catalog pass number type (entriesInWireForm entries) =
      writeMapEntries catalog pass number type entries
  | _, _, [] => rfl
  | number, type, (key, value) :: entries => by
      rw [entriesInWireForm, writeMapEntries, writeMapEntries, value.size_inWireForm,
        value.write_inWireForm, writeMapEntries_inWireForm]

end

/-! ## What is left behind -/

mutual

theorem Value.settle_inWireForm : ∀ (type : ValueType) (value : Value),
    value.inWireForm.settle catalog pass type = (value.settle catalog pass type).inWireForm
  | type, .scalar _ => by cases type <;> rfl
  | type, .enumeration _ => by cases type <;> rfl
  | type, .absent => by cases type <;> rfl
  | type, .message message => by
      cases type with
      | message name => simp only [Value.inWireForm, Value.settle, message.settle_inWireForm]
      | _ => rfl
  | type, .present value => by
      cases type with
      | option inner => simp only [Value.inWireForm, Value.settle, value.settle_inWireForm]
      | _ => rfl
  | type, .reference held wire => by
      cases type with
      | converted converter inner =>
          simp only [Value.inWireForm, Value.settle, wire.settle_inWireForm]
      | _ => rfl

theorem Message.settle_inWireForm : ∀ (message : Message) (schema : MessageSchema),
    message.inWireForm.settle catalog pass schema = (message.settle catalog pass schema).inWireForm
  | .mk contents unknown cache, schema => by
      rw [Message.inWireForm, Message.settle, Message.settle]
      split
      next => rfl
      next =>
        simp only [Message.inWireForm, settleContents_inWireForm, contentsSize_inWireForm]

theorem settleContents_inWireForm : ∀ (entries : List Entry) (contents : List Content),
    settleContents catalog pass entries (contentsInWireForm contents) =
      contentsInWireForm (settleContents catalog pass entries contents)
  | [], [] | [], _ :: _ | _ :: _, [] => rfl
  | entry :: entries, content :: contents => by
      rw [contentsInWireForm, settleContents, settleContents, contentsInWireForm,
        content.settle_inWireForm, settleContents_inWireForm]

theorem Content.settle_inWireForm : ∀ (entry : Entry) (content : Content),
    content.inWireForm.settle catalog pass entry = (content.settle catalog pass entry).inWireForm
  | entry, .unset => by cases entry <;> rfl
  | entry, .singular value => by
      cases entry with
      | singular => simp only [Content.inWireForm, Content.settle, value.settle_inWireForm]
      | _ => rfl
  | entry, .repeated values => by
      cases entry with
      | repeated => simp only [Content.inWireForm, Content.settle, settleValues_inWireForm]
      | _ => rfl
  | entry, .mapping entries => by
      cases entry with
      | map => simp only [Content.inWireForm, Content.settle, settleEntries_inWireForm]
      | _ => rfl
  | entry, .chosen place value => by
      cases entry with
      | oneof =>
          simp only [Content.inWireForm, Content.settle]
          split
          next => rw [Content.inWireForm, value.settle_inWireForm]
          next => rfl
      | _ => rfl

theorem settleValues_inWireForm : ∀ (type : ValueType) (values : List Value),
    settleValues catalog pass type (valuesInWireForm values) =
      valuesInWireForm (settleValues catalog pass type values)
  | _, [] => rfl
  | type, value :: values => by
      rw [valuesInWireForm, settleValues, settleValues, valuesInWireForm,
        value.settle_inWireForm, settleValues_inWireForm]

theorem settleEntries_inWireForm : ∀ (type : ValueType) (entries : List (Scalar × Value)),
    settleEntries catalog pass type (entriesInWireForm entries) =
      entriesInWireForm (settleEntries catalog pass type entries)
  | _, [] => rfl
  | type, (key, value) :: entries => by
      rw [entriesInWireForm, settleEntries, settleEntries, entriesInWireForm,
        value.settle_inWireForm, settleEntries_inWireForm]

end

end Codec

/-! ## Equality -/

-- The comparison goes through both values at once, so nothing holds by evaluation.
mutual

theorem Value.equal_inWireForm : ∀ a b : Value, a.inWireForm.equal b.inWireForm = a.equal b
  | .scalar _, b => by cases b <;> simp only [Value.inWireForm, Value.equal]
  | .enumeration _, b => by cases b <;> simp only [Value.inWireForm, Value.equal]
  | .absent, b => by cases b <;> simp only [Value.inWireForm, Value.equal]
  | .message a, b => by
      cases b with
      | message b => simp only [Value.inWireForm, Value.equal, a.equal_inWireForm b]
      | _ => simp only [Value.inWireForm, Value.equal]
  | .present a, b => by
      cases b with
      | present b => simp only [Value.inWireForm, Value.equal, a.equal_inWireForm b]
      | _ => simp only [Value.inWireForm, Value.equal]
  | .reference _ a, b => by
      cases b with
      | reference _ b => simp only [Value.inWireForm, Value.equal, a.equal_inWireForm b]
      | _ => simp only [Value.inWireForm, Value.equal]

theorem Message.equal_inWireForm : ∀ a b : Message, a.inWireForm.equal b.inWireForm = a.equal b
  | .mk contents unknown _, .mk contents' unknown' _ => by
      rw [Message.inWireForm, Message.inWireForm, Message.equal, Message.equal,
        equalContents_inWireForm]

theorem equalContents_inWireForm : ∀ as bs : List Content,
    equalContents (contentsInWireForm as) (contentsInWireForm bs) = equalContents as bs
  | [], [] | [], _ :: _ | _ :: _, [] => by simp only [contentsInWireForm, equalContents]
  | a :: as, b :: bs => by
      rw [contentsInWireForm, contentsInWireForm, equalContents, equalContents,
        a.equal_inWireForm, equalContents_inWireForm]

theorem Content.equal_inWireForm : ∀ a b : Content, a.inWireForm.equal b.inWireForm = a.equal b
  | .unset, b => by cases b <;> simp only [Content.inWireForm, Content.equal]
  | .singular a, b => by
      cases b with
      | singular b => simp only [Content.inWireForm, Content.equal, a.equal_inWireForm b]
      | _ => simp only [Content.inWireForm, Content.equal]
  | .repeated as, b => by
      cases b with
      | repeated bs => simp only [Content.inWireForm, Content.equal, equalValues_inWireForm as bs]
      | _ => simp only [Content.inWireForm, Content.equal]
  | .mapping as, b => by
      cases b with
      | mapping bs => simp only [Content.inWireForm, Content.equal, equalEntries_inWireForm as bs]
      | _ => simp only [Content.inWireForm, Content.equal]
  | .chosen place a, b => by
      cases b with
      | chosen place' b => simp only [Content.inWireForm, Content.equal, a.equal_inWireForm b]
      | _ => simp only [Content.inWireForm, Content.equal]

theorem equalValues_inWireForm : ∀ as bs : List Value,
    equalValues (valuesInWireForm as) (valuesInWireForm bs) = equalValues as bs
  | [], [] | [], _ :: _ | _ :: _, [] => by simp only [valuesInWireForm, equalValues]
  | a :: as, b :: bs => by
      rw [valuesInWireForm, valuesInWireForm, equalValues, equalValues, a.equal_inWireForm,
        equalValues_inWireForm]

theorem equalEntries_inWireForm : ∀ as bs : List (Scalar × Value),
    equalEntries (entriesInWireForm as) (entriesInWireForm bs) = equalEntries as bs
  | [], [] | [], _ :: _ | _ :: _, [] => by simp only [entriesInWireForm, equalEntries]
  | (key, a) :: as, (key', b) :: bs => by
      rw [entriesInWireForm, entriesInWireForm, equalEntries, equalEntries, a.equal_inWireForm,
        equalEntries_inWireForm]

end

/-! ## Calls -/

namespace Catalog

variable (catalog : Catalog) (running pass : Pass) (next : Nat) (name : String) (message : Message)

theorem bodySize_inWireForm :
    catalog.bodySize name pass message.inWireForm = catalog.bodySize name pass message :=
  message.bodySize_inWireForm (catalog.schema name)

theorem writeBody_inWireForm :
    catalog.writeBody name pass message.inWireForm = catalog.writeBody name pass message :=
  message.writeBody_inWireForm (catalog.schema name)

theorem settle_inWireForm :
    catalog.settle name pass message.inWireForm = (catalog.settle name pass message).inWireForm :=
  message.settle_inWireForm (catalog.schema name)

theorem writeDelimited_inWireForm :
    catalog.writeDelimited name pass message.inWireForm =
      catalog.writeDelimited name pass message := by
  rw [writeDelimited, writeDelimited, bodySize_inWireForm, writeBody_inWireForm]

/-- A message answers every call as the message in its wire form does. -/
theorem call_inWireForm (call : Call) :
    (catalog.call running next name message.inWireForm call).answer =
      (catalog.call running next name message call).answer := by
  cases call with
  | size | bytes | frozen | handedTo | delimited =>
      simp only [Catalog.call, Encoded.map, measure, encode, encodeFrozen, encodeTo,
        encodeDelimited, settle_inWireForm, bodySize_inWireForm, writeBody_inWireForm,
        writeDelimited_inWireForm]
  | bytesInto capacity =>
      simp only [Catalog.call, Encoded.map, encodeInto, settle_inWireForm, bodySize_inWireForm,
        writeBody_inWireForm]
      split <;> rfl
  | delimitedInto capacity =>
      simp only [Catalog.call, Encoded.map, encodeDelimitedInto, settle_inWireForm,
        bodySize_inWireForm, writeDelimited_inWireForm]
      split <;> rfl
  | bodySize => simp only [Catalog.call, bodySize_inWireForm]
  | valueSize => exact congrArg Answer.number ((Value.message message).size_inWireForm _)
  | isDefault => exact congrArg Answer.flag ((Value.message message).isDefault_inWireForm _)
  | valueBytes =>
      cases running <;>
        simp only [Catalog.call, Encoded.map, encodeValue, encodeDelimited, settle_inWireForm,
          writeDelimited_inWireForm]

/-- Messages that differ in the forms held alone cannot be told apart, neither by calls nor by
comparing them. -/
theorem indistinguishable {message other : Message}
    (hforms : message.inWireForm = other.inWireForm) :
    (∀ (catalog : Catalog) running next name call,
      (catalog.call running next name message call).answer =
        (catalog.call running next name other call).answer) ∧
    ∀ third, message.equal third = other.equal third ∧ third.equal message = third.equal other := by
  refine ⟨fun catalog running next name call => ?_, fun third => ⟨?_, ?_⟩⟩
  · rw [← call_inWireForm, hforms, call_inWireForm]
  · rw [← message.equal_inWireForm, hforms, other.equal_inWireForm]
  · rw [← third.equal_inWireForm, hforms, third.equal_inWireForm]

end Catalog

/-! ## Values in places -/

mutual

/-- A value with places left open for other values. -/
inductive ValueOutline (Place : Type) where
  | place (place : Place)
  | given (value : Value)
  | message (message : MessageOutline Place)
  | present (value : ValueOutline Place)
  | reference (held : HeldForm) (wire : ValueOutline Place)

/-- A message with places left open for values. -/
inductive MessageOutline (Place : Type) where
  | mk (contents : List (ContentOutline Place)) (unknown : UnknownFieldSet) (cache : SizeCache)

/-- A content with places left open for values. -/
inductive ContentOutline (Place : Type) where
  | given (content : Content)
  | singular (value : ValueOutline Place)
  | repeated (values : List (ValueOutline Place))
  | mapping (entries : List (Scalar × ValueOutline Place))
  | chosen (member : Nat) (value : ValueOutline Place)

end

section Outlines

variable {Place : Type} (values : Place → Value)

mutual

/-- The value with every place taken. -/
def ValueOutline.fill : ValueOutline Place → Value
  | .place place => values place
  | .given value => value
  | .message message => .message message.fill
  | .present value => .present value.fill
  | .reference held wire => .reference held wire.fill

/-- The message with every place taken. -/
def MessageOutline.fill : MessageOutline Place → Message
  | .mk contents unknown cache => .mk (fillContents contents) unknown cache

/-- The contents with every place taken. -/
def fillContents : List (ContentOutline Place) → List Content
  | [] => []
  | content :: rest => content.fill :: fillContents rest

/-- The content with every place taken. -/
def ContentOutline.fill : ContentOutline Place → Content
  | .given content => content
  | .singular value => .singular value.fill
  | .repeated outlines => .repeated (fillValues outlines)
  | .mapping entries => .mapping (fillEntries entries)
  | .chosen member value => .chosen member value.fill

/-- The values with every place taken. -/
def fillValues : List (ValueOutline Place) → List Value
  | [] => []
  | value :: rest => value.fill :: fillValues rest

/-- The entries of a map with every place taken. -/
def fillEntries : List (Scalar × ValueOutline Place) → List (Scalar × Value)
  | [] => []
  | (key, value) :: rest => (key, value.fill) :: fillEntries rest

end

/-- Values of the same wire form in every place. -/
def SameForms (values values' : Place → Value) : Prop :=
  ∀ place, (values place).inWireForm = (values' place).inWireForm

variable {values} {values' : Place → Value}

mutual

theorem ValueOutline.inWireForm_fill (hsame : SameForms values values') :
    ∀ outline : ValueOutline Place,
      (outline.fill values).inWireForm = (outline.fill values').inWireForm
  | .place place => hsame place
  | .given _ => rfl
  | .message message => congrArg Value.message (message.inWireForm_fill hsame)
  | .present value => congrArg Value.present (value.inWireForm_fill hsame)
  | .reference _ wire => congrArg (Value.reference .wire) (wire.inWireForm_fill hsame)

/-- The wire form of a message depends on the wire forms of what is put into its places. -/
theorem MessageOutline.inWireForm_fill (hsame : SameForms values values') :
    ∀ outline : MessageOutline Place,
      (outline.fill values).inWireForm = (outline.fill values').inWireForm
  | .mk contents unknown cache =>
      congrArg (Message.mk · unknown cache) (contentsInWireForm_fill hsame contents)

theorem contentsInWireForm_fill (hsame : SameForms values values') :
    ∀ outlines : List (ContentOutline Place),
      contentsInWireForm (fillContents values outlines) =
        contentsInWireForm (fillContents values' outlines)
  | [] => rfl
  | content :: rest =>
      congrArg₂ List.cons (content.inWireForm_fill hsame) (contentsInWireForm_fill hsame rest)

theorem ContentOutline.inWireForm_fill (hsame : SameForms values values') :
    ∀ outline : ContentOutline Place,
      (outline.fill values).inWireForm = (outline.fill values').inWireForm
  | .given _ => rfl
  | .singular value => congrArg Content.singular (value.inWireForm_fill hsame)
  | .repeated outlines => congrArg Content.repeated (valuesInWireForm_fill hsame outlines)
  | .mapping entries => congrArg Content.mapping (entriesInWireForm_fill hsame entries)
  | .chosen member value => congrArg (Content.chosen member) (value.inWireForm_fill hsame)

theorem valuesInWireForm_fill (hsame : SameForms values values') :
    ∀ outlines : List (ValueOutline Place),
      valuesInWireForm (fillValues values outlines) =
        valuesInWireForm (fillValues values' outlines)
  | [] => rfl
  | value :: rest =>
      congrArg₂ List.cons (value.inWireForm_fill hsame) (valuesInWireForm_fill hsame rest)

theorem entriesInWireForm_fill (hsame : SameForms values values') :
    ∀ entries : List (Scalar × ValueOutline Place),
      entriesInWireForm (fillEntries values entries) =
        entriesInWireForm (fillEntries values' entries)
  | [] => rfl
  | (key, value) :: rest =>
      congrArg₂ (fun value rest => (key, value) :: rest) (value.inWireForm_fill hsame)
        (entriesInWireForm_fill hsame rest)

end

end Outlines

end ProtoWire
