import ProtoWire.Value

/-! # Converted values

A converter maps wire values to domain values and back. A reference holds one of the two forms,
converts when the other is asked for and keeps the result, so asking again converts nothing. A
conversion that is refused leaves the wire value in place.
-/

namespace ProtoWire

/-- A map between a wire type and a domain type. -/
structure Converter (W D : Type) where
  name : String
  /-- Turns a wire value into a domain value, or gives the reason for refusing it. -/
  wrap : W → Except String D
  unwrap : D → W

/-- A converted value in the form held at present. -/
inductive Reference (W D : Type) where
  | wire (value : W)
  | domain (value : D)
deriving DecidableEq, Repr

/-- How often a converter was called in each direction. -/
structure ConversionCount where
  wraps : Nat := 0
  unwraps : Nat := 0
deriving DecidableEq, Repr

/-- A computation that may call a converter, with the count of the calls so far. -/
abbrev Converting := StateM ConversionCount

namespace Reference

variable {W D : Type}

/-- The form held at present. -/
def held : Reference W D → HeldForm
  | .wire _ => .wire
  | .domain _ => .domain

/-- The wire form, whichever form is held. -/
def wireForm (converter : Converter W D) : Reference W D → W
  | .wire value => value
  | .domain value => converter.unwrap value

/-- Calls the converter on a wire value. -/
def runWrap (converter : Converter W D) (value : W) : Converting (Except ConversionError D) := do
  modify fun count => { count with wraps := count.wraps + 1 }
  return (converter.wrap value).mapError fun reason => ⟨converter.name, reason⟩

/-- Calls the converter on a domain value. -/
def runUnwrap (converter : Converter W D) (value : D) : Converting W := do
  modify fun count => { count with unwraps := count.unwraps + 1 }
  return converter.unwrap value

/-- The domain value, and the reference afterwards. -/
def wrapped (converter : Converter W D) :
    Reference W D → Converting (Except ConversionError D × Reference W D)
  | .domain value => return (.ok value, .domain value)
  | .wire value => do
      match ← runWrap converter value with
      | .ok result => return (.ok result, .domain result)
      | .error error => return (.error error, .wire value)

/-- What a function tells of the wire value, and the reference afterwards. -/
def withWire {α : Type} (converter : Converter W D) (tell : W → α) :
    Reference W D → Converting (α × Reference W D)
  | .wire value => return (tell value, .wire value)
  | .domain value => do
      let result ← runUnwrap converter value
      return (tell result, .wire result)

/-- The wire value, and the reference afterwards. -/
def unwrapped (converter : Converter W D) : Reference W D → Converting (W × Reference W D) :=
  withWire converter id

/-- The reference as a value of a message, given how its wire values are. -/
def toValue (converter : Converter W D) (wire : W → Value) (reference : Reference W D) : Value :=
  .reference reference.held (wire (reference.wireForm converter))

end Reference

/-- References known by name, with the count of the conversions made so far. -/
structure References (W D : Type) where
  named : List (String × Reference W D) := []
  count : ConversionCount := {}

namespace References

variable {W D : Type}

/-- The named references with one set anew. -/
def setNamed (name : String) (reference : Reference W D) :
    List (String × Reference W D) → List (String × Reference W D)
  | [] => [(name, reference)]
  | (other, held) :: rest =>
      if other = name then (name, reference) :: rest
      else (other, held) :: setNamed name reference rest

/-- The references with one set anew. -/
def set (references : References W D) (name : String) (reference : Reference W D) :
    References W D :=
  { references with named := setNamed name reference references.named }

/-- The reference with a given name, or the wire form of `zero` for a name not used before. -/
def get (references : References W D) (zero : W) (name : String) : Reference W D :=
  (references.named.lookup name).getD (.wire zero)

/-- The references with a name in use; a name not used before refers to the wire form of `zero`. -/
def touch (references : References W D) (zero : W) (name : String) : References W D :=
  references.set name (references.get zero name)

/-- Looks at a named reference, which may convert it. -/
def look {α : Type} (zero : W) (name : String)
    (body : Reference W D → Converting (α × Reference W D)) :
    StateM (References W D) α := do
  let references ← MonadState.get
  let ((answer, reference), count) := (body (references.get zero name)).run references.count
  MonadState.set { references.set name reference with count }
  return answer

/-- The domain value of a named reference. -/
def wrapped (converter : Converter W D) (zero : W) (name : String) :
    StateM (References W D) (Except ConversionError D) :=
  look zero name (Reference.wrapped converter)

/-- What a function tells of the wire value of a named reference. -/
def withWire {α : Type} (converter : Converter W D) (zero : W) (name : String) (tell : W → α) :
    StateM (References W D) α :=
  look zero name (Reference.withWire converter tell)

/-- The wire value of a named reference. -/
def unwrapped (converter : Converter W D) (zero : W) (name : String) :
    StateM (References W D) W :=
  look zero name (Reference.unwrapped converter)

/-- Whether two named references have the same wire form. -/
def equal [BEq W] (converter : Converter W D) (zero : W) (first second : String) :
    StateM (References W D) Bool := do
  let a ← unwrapped converter zero first
  let b ← unwrapped converter zero second
  return a == b

/-- Whether the wire forms of two named references have the same hash. -/
def hashEqual [Hashable W] (converter : Converter W D) (zero : W) (first second : String) :
    StateM (References W D) Bool := do
  let a ← withWire converter zero first hash
  let b ← withWire converter zero second hash
  return a == b

/-- Makes one name refer to a copy of another name's reference, in the form it holds. -/
def copy (zero : W) (source target : String) : StateM (References W D) Unit := do
  let reference ← look zero source fun reference => return (reference, reference)
  modify fun references => references.set target reference

end References

/-- A UUID, most significant octet first. -/
structure Uuid where
  octets : Vector UInt8 16
deriving DecidableEq, Repr

/-- UUIDs on the wire are their sixteen octets. -/
def uuidConverter : Converter Bytes Uuid where
  name := "UuidBytesConverter"
  wrap bytes :=
    if h : bytes.toArray.size = 16 then .ok ⟨⟨bytes.toArray, h⟩⟩
    else .error s!"expected 16 bytes, got {bytes.length}"
  unwrap uuid := uuid.octets.toList

/-- An address of either version of the internet protocol, in network order. -/
inductive IpAddress where
  | v4 (octets : Vector UInt8 4)
  | v6 (octets : Vector UInt8 16)
deriving DecidableEq, Repr

/-- Addresses on the wire are their four or sixteen octets. -/
def ipAddressConverter : Converter Bytes IpAddress where
  name := "IpAddrBytesConverter"
  wrap bytes :=
    if h : bytes.toArray.size = 4 then .ok (.v4 ⟨bytes.toArray, h⟩)
    else if h : bytes.toArray.size = 16 then .ok (.v6 ⟨bytes.toArray, h⟩)
    else .error s!"expected 4 or 16 bytes, got {bytes.length}"
  unwrap
    | .v4 octets => octets.toList
    | .v6 octets => octets.toList

end ProtoWire
