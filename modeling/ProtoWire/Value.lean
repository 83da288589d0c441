import ProtoWire.Schema
import ProtoWire.SizeCache

/-! # Messages

A message holds the content of each entry of its type, the undeclared records it captured and the
remembered size. Equality compares contents and captured records, references by their wire form
and floating-point numbers as numbers; a copy remembers no sizes.
-/

namespace ProtoWire

/-- The form in which a converted value is held at present. -/
inductive HeldForm where
  | wire
  | domain
deriving DecidableEq, Repr

mutual

/-- A value of some value type. -/
inductive Value where
  | scalar (scalar : Scalar)
  | enumeration (value : EnumValue)
  | message (message : Message)
  | absent
  | present (value : Value)
  /-- A converted value, given by its wire form whichever form is held. -/
  | reference (held : HeldForm) (wire : Value)

/-- A message, with one content for each entry of its type. -/
inductive Message where
  | mk (contents : List Content) (unknown : UnknownFieldSet) (cache : SizeCache)

/-- What a message holds for one entry. -/
inductive Content where
  | singular (value : Value)
  | repeated (values : List Value)
  | mapping (entries : List (Scalar × Value))
  /-- A oneof of which no member is set. -/
  | unset
  /-- A oneof of which the member at the given place is set. -/
  | chosen (member : Nat) (value : Value)

end

namespace Message

/-- The contents of a message, one for each entry of its type. -/
def contents : Message → List Content
  | .mk contents _ _ => contents

/-- The undeclared records captured by a message. -/
def unknown : Message → UnknownFieldSet
  | .mk _ unknown _ => unknown

/-- The remembered size of a message. -/
def cache : Message → SizeCache
  | .mk _ _ cache => cache

/-- The message with other contents, its remembered size unchanged. -/
def withContents (message : Message) (contents : List Content) : Message :=
  .mk contents message.unknown message.cache

/-- The message with another remembered size. -/
def withCache (message : Message) (cache : SizeCache) : Message :=
  .mk message.contents message.unknown cache

end Message

/-! ## Equality -/

mutual

/-- Equality of values. -/
def Value.equal : Value → Value → Bool
  | .scalar a, .scalar b => a.equal b
  | .enumeration a, .enumeration b => a == b
  | .message a, .message b => a.equal b
  | .absent, .absent => true
  | .present a, .present b => a.equal b
  | .reference _ a, .reference _ b => a.equal b
  | _, _ => false

/-- Equality of messages, in which remembered sizes have no part. -/
def Message.equal : Message → Message → Bool
  | .mk contents unknown _, .mk contents' unknown' _ =>
      equalContents contents contents' && unknown == unknown'

/-- Equality of lists of contents. -/
def equalContents : List Content → List Content → Bool
  | [], [] => true
  | a :: as, b :: bs => a.equal b && equalContents as bs
  | _, _ => false

/-- Equality of contents. -/
def Content.equal : Content → Content → Bool
  | .singular a, .singular b => a.equal b
  | .repeated as, .repeated bs => equalValues as bs
  | .mapping as, .mapping bs => equalEntries as bs
  | .unset, .unset => true
  | .chosen member a, .chosen member' b => member == member' && a.equal b
  | _, _ => false

/-- Equality of lists of values. -/
def equalValues : List Value → List Value → Bool
  | [], [] => true
  | a :: as, b :: bs => a.equal b && equalValues as bs
  | _, _ => false

/-- Equality of maps, given by their entries in the order of keys. -/
def equalEntries : List (Scalar × Value) → List (Scalar × Value) → Bool
  | [], [] => true
  | (key, a) :: as, (key', b) :: bs => key == key' && a.equal b && equalEntries as bs
  | _, _ => false

end

/-! ## Copies -/

mutual

/-- A copy of a value. -/
def Value.copy : Value → Value
  | .scalar scalar => .scalar scalar
  | .enumeration value => .enumeration value
  | .message message => .message message.copy
  | .absent => .absent
  | .present value => .present value.copy
  | .reference held wire => .reference held wire.copy

/-- A copy of a message, which remembers no sizes. -/
def Message.copy : Message → Message
  | .mk contents unknown cache => .mk (copyContents contents) unknown cache.copy

/-- Copies of contents. -/
def copyContents : List Content → List Content
  | [] => []
  | content :: rest => content.copy :: copyContents rest

/-- A copy of a content. -/
def Content.copy : Content → Content
  | .singular value => .singular value.copy
  | .repeated values => .repeated (copyValues values)
  | .mapping entries => .mapping (copyEntries entries)
  | .unset => .unset
  | .chosen member value => .chosen member value.copy

/-- Copies of values. -/
def copyValues : List Value → List Value
  | [] => []
  | value :: rest => value.copy :: copyValues rest

/-- Copies of the entries of a map. -/
def copyEntries : List (Scalar × Value) → List (Scalar × Value)
  | [] => []
  | (key, value) :: rest => (key, value.copy) :: copyEntries rest

end

/-! ## Maps -/

/-- The entries of a map with a key set to a value. A map that is held is the list of its entries in
the order of their keys, and stays so. In a list that is not in this order, another entry under the
key may be left behind the one that is set, which hides it. -/
def insertEntry (key : Scalar) (value : Value) :
    List (Scalar × Value) → List (Scalar × Value)
  | [] => [(key, value)]
  | (other, held) :: rest =>
      if key = other then (key, value) :: rest
      else if key.precedes other then (key, value) :: (other, held) :: rest
      else (other, held) :: insertEntry key value rest

/-! ## Defaults -/

/-- The default of a value type, given those of the message types. -/
def ValueType.default? (message : String → Option Message) : ValueType → Option Value
  | .scalar type => some (.scalar type.zero)
  | .enumeration schema => some (.enumeration schema.zero)
  | .message name => (message name).map .message
  | .option _ => some .absent
  | .converted _ wire => (wire.default? message).map (.reference .wire)

/-- The default content of an entry; a required oneof has none. So no default is known of a message
type that has one: a program has to give it by hand, and it is no part of a catalog. -/
def Entry.default? (message : String → Option Message) : Entry → Option Content
  | .singular _ _ type _ _ => (type.default? message).map .singular
  | .repeated .. => some (.repeated [])
  | .map .. => some (.mapping [])
  | .oneof _ _ required => if required then none else some .unset

namespace Catalog

/-- The default message of a type whose default is nested in at most `levels` types. -/
def defaultMessageWithin? (catalog : Catalog) : (levels : Nat) → String → Option Message
  | 0, _ => none
  | levels + 1, name => do
      let contents ← (catalog.schema name).entries.mapM
        (·.default? (catalog.defaultMessageWithin? levels))
      return .mk contents .empty .empty

/-- The default message of a type. A type has none when it needs a oneof, or when it is reached
from itself through fields that are never absent. -/
def defaultMessage? (catalog : Catalog) (name : String) : Option Message :=
  catalog.defaultMessageWithin? (catalog.messages.length + 1) name

/-- The default of a value type. -/
def default? (catalog : Catalog) (type : ValueType) : Option Value :=
  type.default? catalog.defaultMessage?

end Catalog

end ProtoWire
