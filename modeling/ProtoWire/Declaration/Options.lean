import ProtoWire.Declaration.Basic
import ProtoWire.Declaration.Error
import ProtoWire.Source.Similarity

/-! # Options

Options are read from the first attribute with the keyword. Every item is looked up by its name;
all faults of the attribute are collected, so the good items of a faulty attribute do not count.
Variants of enumerations are read differently: all their attributes count, a later value replaces
an earlier one and the first fault ends the reading.
-/

namespace ProtoWire.Declaration

open Source (Attribute Cursor ExpressionForm Literal MetaItem ParseError Parser Path Tree)

/-! ## Values of options -/

/-- What an item gives for its option. -/
inductive Given where
  | word
  /-- A list, and what is wrong with it if it is no list of items. -/
  | list (error : Option ParseError)
  | value (form : ExpressionForm)
deriving DecidableEq, Repr

/-- The fault of a form that an option does not take. -/
def Given.unexpected : Given → OptionFault
  | .word => .unexpectedForm "word"
  | .list none => .unexpectedForm "list"
  | .list (some error) => .unreadable error
  | .value form => .unexpectedKind form.kind

/-- The number that decimal text stands for; a plus sign may stand in front. -/
def decimal? (text : String) : Option Nat :=
  let digits := match text.toList with
    | '+' :: digits => digits
    | digits => digits
  if digits.isEmpty || !digits.all (·.isDigit) then none
  else some (digits.foldl (fun value c => 10 * value + (c.toNat - '0'.toNat)) 0)

namespace Given

/-- The number given for an option, as a number or as text. -/
def number : Given → Except OptionFault UInt32
  | .value (.literal (.integer isNegative n)) =>
      if isNegative then .error .invalidDigit
      else if n < UInt32.size then .ok (UInt32.ofNat n)
      else .error .tooLarge
  | .value (.literal (.text digits)) =>
      match decimal? digits with
      | some n =>
          if n < UInt32.size then .ok (UInt32.ofNat n) else .error (.unknownText digits)
      | none => .error (.unknownText digits)
  | other => .error other.unexpected

/-- Whether a flag is set: by its name alone, or as it is told. -/
def flag : Given → Except OptionFault Bool
  | .word => .ok true
  | .value (.literal (.bool isSet)) => .ok isSet
  | .value (.literal (.text "true")) => .ok true
  | .value (.literal (.text "false")) => .ok false
  | .value (.literal (.text other)) => .error (.unknownText other)
  | other => .error other.unexpected

/-- The text given for an option. -/
def text : Given → Except OptionFault String
  | .value (.literal (.text given)) => .ok given
  | other => .error other.unexpected

end Given

/-! ## Reading an attribute -/

/-- The options that have a name: each with the change it makes. -/
abbrev OptionTable (α : Type) := List (String × (Given → α → Except OptionFault α))

/-- What is read of an attribute so far. -/
structure OptionReading (α : Type) where
  options : α
  seen : List String := []
  faults : List LocatedFault := []

namespace OptionReading

variable {α : Type}

/-- Adds a fault. -/
def addFault (reading : OptionReading α) (fault : OptionFault) (option : Option String) :
    OptionReading α :=
  { reading with faults := reading.faults ++ [⟨fault, option⟩] }

/-- Takes in what is given under a name. A name counts as seen even if its value is faulty. -/
def take (table : OptionTable α) (reading : OptionReading α) (name : String) (given : Given) :
    OptionReading α :=
  match table.lookup name with
  | none =>
      reading.addFault (.unknownName name (Source.mostSimilar? name (table.map (·.1)))) none
  | some change =>
      if reading.seen.contains name then reading.addFault (.repeatedName name) none
      else
        let reading := { reading with seen := name :: reading.seen }
        match change given reading.options with
        | .ok options => { reading with options }
        | .error fault => reading.addFault fault (some name)

/-- Takes in items. -/
def takeItems (table : OptionTable α) (reading : OptionReading α) :
    List MetaItem → OptionReading α
  | [] => reading
  | .literal :: rest => takeItems table (reading.addFault (.unexpectedForm "literal") none) rest
  | .word name :: rest => takeItems table (reading.take table name .word) rest
  | .list name error :: rest => takeItems table (reading.take table name (.list error)) rest
  | .value name form :: rest => takeItems table (reading.take table name (.value form)) rest

/-- The options read, or all faults. -/
def finish (reading : OptionReading α) : Except AttributeFaults α :=
  match reading.faults with
  | [] => .ok reading.options
  | first :: rest => .error ⟨first, rest⟩

end OptionReading

/-- The faults of an attribute that is faulty as a whole. -/
def AttributeFaults.ofWhole (fault : OptionFault) : AttributeFaults := ⟨⟨fault, none⟩, []⟩

/-- Reads options from the first attribute with the keyword; without one they are as at first. -/
def readOptions (table : OptionTable α) (options : α) (attributes : List Attribute) :
    Except AttributeFaults α :=
  match attributes.find? isRead with
  | none => .ok options
  | some found =>
      match found.body with
      | .word => .error (.ofWhole (.unexpectedForm "word"))
      | .value form => .error (.ofWhole (.unexpectedKind form.kind))
      | .list trees =>
          match Source.readItems trees with
          | .ok items => (OptionReading.takeItems table { options } items).finish
          | .error error => .error (.ofWhole (.unreadable error))

/-! ## Options of messages, fields and members -/

/-- The options of a message. -/
structure MessageOptions where
  name : Option String := none
  dialect : Option String := none
deriving DecidableEq, Repr

/-- The options of a message by name. -/
def MessageOptions.table : OptionTable MessageOptions := [
  ("name", fun given options => return { options with name := some (← given.text) }),
  ("syntax", fun given options => return { options with dialect := some (← given.text) })]

/-- The options of a field. -/
structure FieldOptions where
  number : Option UInt32 := none
  optional : Bool := false
  nonNull : Bool := false
  repeated : Bool := false
  packed : Option Bool := none
  map : Bool := false
  oneof : Bool := false
  required : Bool := false
  unknown : Bool := false
  sizeCache : Bool := false
deriving DecidableEq, Repr

/-- The options of a field by name. -/
def FieldOptions.table : OptionTable FieldOptions := [
  ("tag", fun given options => return { options with number := some (← given.number) }),
  ("optional", fun given options => return { options with optional := ← given.flag }),
  ("non_null", fun given options => return { options with nonNull := ← given.flag }),
  ("repeated", fun given options => return { options with repeated := ← given.flag }),
  ("packed", fun given options => return { options with packed := some (← given.flag) }),
  ("map", fun given options => return { options with map := ← given.flag }),
  ("oneof", fun given options => return { options with oneof := ← given.flag }),
  ("required", fun given options => return { options with required := ← given.flag }),
  ("unknown", fun given options => return { options with unknown := ← given.flag }),
  ("size_cache", fun given options => return { options with sizeCache := ← given.flag })]

/-- The options of a member of a oneof. -/
structure MemberOptions where
  number : Option UInt32 := none
deriving DecidableEq, Repr

/-- The options of a member by name. -/
def MemberOptions.table : OptionTable MemberOptions := [
  ("tag", fun given options => return { options with number := some (← given.number) })]

/-! ## Options of variants -/

/-- The options of an enumeration's variant. -/
structure VariantOptions where
  value : Option Int32 := none
  unrecognized : Bool := false
deriving DecidableEq, Repr

namespace VariantOptions

/-- A reader of settings. -/
abbrev SettingReader := StateT Cursor (Except VariantFault)

/-- Reads a part of a setting. -/
def part (read : Parser α) : SettingReader α := fun cursor =>
  (read cursor).mapError .unreadable

/-- Reads the name of a setting: words with double colons between them. -/
def settingName : Parser Path := do
  let isRooted ← Parser.symbol? "::"
  let trees ← Parser.ahead
  if trees.isEmpty then Parser.fail (.expected "nested attribute")
  unless Source.atAnyWord trees do
    let found := if Source.atLiteral trees then "literal" else "token"
    Parser.fail (.instead s!"{found} in nested attribute" "ident")
  let mut segments := #[⟨← Parser.anyWord, .none⟩]
  for _ in ← Parser.turns do
    unless ← Parser.symbol? "::" do break
    segments := segments.push ⟨← Parser.anyWord, .none⟩
  return { isRooted, segments := segments.toList }

/-- Reads an integer by its sign and its magnitude. -/
def integer : Parser (Bool × Nat) := do
  match Source.literalAt? (← Parser.ahead) with
  | some (.integer isNegative magnitude, count) =>
      Parser.take count
      return (isNegative, magnitude)
  | _ => Parser.fail (.expected "integer literal")

/-- The value that an integer is. -/
def valueOf (isNegative : Bool) (magnitude : Nat) : Except VariantFault Int32 :=
  if isNegative then
    if Int32.size / 2 < magnitude then .error .tooSmall else .ok (Int32.ofInt (-magnitude))
  else
    if Int32.size / 2 ≤ magnitude then .error .tooLarge else .ok (Int32.ofNat magnitude)

/-- Reads a setting. -/
def setting (options : VariantOptions) : SettingReader VariantOptions := do
  let name ← part settingName
  if name.isName "value" then
    part (Parser.symbol "=")
    let (isNegative, magnitude) ← part integer
    return { options with value := some (← valueOf isNegative magnitude) }
  else if name.isName "unrecognized" then return { options with unrecognized := true }
  else throw .nameExpected

/-- Reads settings with commas between them; after the last there may be one. -/
def settings (options : VariantOptions) : SettingReader VariantOptions := do
  let mut options := options
  for _ in ← part Parser.turns do
    if (← part Parser.ahead).isEmpty then break
    options ← setting options
    if (← part Parser.ahead).isEmpty then break
    part (Parser.symbol ",")
  return options

/-- Takes in one attribute. -/
def takeAttribute (options : VariantOptions) (found : Attribute) :
    Except VariantFault VariantOptions :=
  if !isRead found then .ok options
  else
    match found.body with
    | .word => .error .argumentsExpected
    | .value _ => .error .parenthesesExpected
    | .list trees => (settings options).run' { rest := trees }

/-- Reads the options of a variant from its attributes. -/
def read (attributes : List Attribute) : Except VariantFault VariantOptions :=
  attributes.foldlM takeAttribute {}

end VariantOptions

end ProtoWire.Declaration
