import ProtoWire.Bytes

/-! # JSON documents

A JSON document as a tree, the text of a document and the accessors that read one. The text is
ASCII: other characters are written as UTF-16 escapes. Byte strings are written in hexadecimal. An
absent member and `null` read as the default of what is asked for.
-/

namespace ProtoWire

/-- A JSON document whose numbers are integers. -/
inductive Json where
  | null
  | bool (value : Bool)
  | number (value : Int)
  | text (value : String)
  | list (items : List Json)
  | object (members : List (String × Json))
deriving Inhabited

/-- Why a document is not understood. -/
inductive JsonError where
  | expected (what : String)
deriving DecidableEq, Repr

/-- The wording of a document error. -/
def JsonError.message : JsonError → String
  | .expected what => s!"{what} expected"

/-- The outcome of reading a document. -/
abbrev JsonResult := Except JsonError

/-! ## Hexadecimal -/

namespace Hex

/-- The lower-case hexadecimal digit of a number below sixteen. -/
def digit (n : Nat) : Char :=
  if n < 10 then Char.ofNat ('0'.toNat + n) else Char.ofNat ('a'.toNat + (n - 10))

/-- The number of a hexadecimal digit of either case. -/
def digitValue? (c : Char) : Option Nat :=
  if '0' ≤ c ∧ c ≤ '9' then some (c.toNat - '0'.toNat)
  else if 'a' ≤ c ∧ c ≤ 'f' then some (c.toNat - 'a'.toNat + 10)
  else if 'A' ≤ c ∧ c ≤ 'F' then some (c.toNat - 'A'.toNat + 10)
  else none

/-- The lowest `width` hexadecimal digits of a number, the highest first. -/
def ofNat (width n : Nat) : String :=
  String.ofList ((List.range width).reverse.map fun place => digit ((n >>> (4 * place)) % 16))

/-- The number whose hexadecimal digits are given. -/
def toNat? (text : String) : Option Nat :=
  text.toList.foldlM (fun value c => (digitValue? c).map (16 * value + ·)) 0

/-- The digits of a byte string, two for each byte. -/
def ofBytes (bytes : Bytes) : String :=
  String.ofList (bytes.flatMap fun byte => [digit (byte.toNat / 16), digit (byte.toNat % 16)])

/-- The bytes whose digits are given, put in front of bytes read before in reverse order. -/
def bytesOfDigits? (read : Bytes) : List Char → Option Bytes
  | [] => some read.reverse
  | [_] => none
  | high :: low :: rest => do
      let byte := 16 * (← digitValue? high) + (← digitValue? low)
      bytesOfDigits? (UInt8.ofNat byte :: read) rest

/-- The byte string with the given digits. -/
def toBytes? (text : String) : Option Bytes := bytesOfDigits? [] text.toList

end Hex

namespace Json

/-! ## Text -/

/-- The escape of one UTF-16 unit. -/
def escapeUnit (unit : Nat) : String := "\\u" ++ Hex.ofNat 4 unit

/-- The text of a character within a string. -/
def escape (c : Char) : String :=
  if c = '"' then "\\\""
  else if c = '\\' then "\\\\"
  else if 0x20 ≤ c.toNat ∧ c.toNat < 0x7F then c.toString
  else if c.toNat < 0x10000 then escapeUnit c.toNat
  else
    let offset := c.toNat - 0x10000
    escapeUnit (0xD800 + offset / 0x400) ++ escapeUnit (0xDC00 + offset % 0x400)

/-- Appends the text of a string. -/
def appendText (out value : String) : String :=
  (value.toList.foldl (fun out c => out ++ escape c) (out.push '"')).push '"'

mutual

/-- Appends the text of a document. -/
def appendTo (out : String) : Json → String
  | .null => out ++ "null"
  | .bool value => out ++ toString value
  | .number value => out ++ toString value
  | .text value => appendText out value
  | .list [] => out ++ "[]"
  | .list (item :: rest) => (appendItems (appendTo (out.push '[') item) rest).push ']'
  | .object [] => out ++ "\x7b\x7d"
  | .object ((name, value) :: rest) =>
      (appendMembers (appendTo ((appendText (out.push '\x7b') name).push ':') value) rest).push
        '\x7d'

/-- Appends the texts of items, each behind a comma. -/
def appendItems (out : String) : List Json → String
  | [] => out
  | item :: rest => appendItems (appendTo (out.push ',') item) rest

/-- Appends the texts of members, each behind a comma. -/
def appendMembers (out : String) : List (String × Json) → String
  | [] => out
  | (name, value) :: rest =>
      appendMembers (appendTo ((appendText (out.push ',') name).push ':') value) rest

end

/-- The text of a document. -/
def render (json : Json) : String := appendTo "" json

/-! ## Building -/

/-- A number that is not negative. -/
def nat (value : Nat) : Json := .number value

/-- A number as text, for numbers that a reader may not hold exactly. -/
def natText (value : Nat) : Json := .text (toString value)

/-- A byte string in hexadecimal. -/
def hex (bytes : Bytes) : Json := .text (Hex.ofBytes bytes)

/-- A document that may be absent. -/
def orNull (json : Option Json) : Json := json.getD .null

/-- A list of texts. -/
def texts (values : List String) : Json := .list (values.map .text)

/-! ## Reading -/

mutual

/-- How deep the document is nested. -/
def depth : Json → Nat
  | .list items => depthOfItems items + 1
  | .object members => depthOfMembers members + 1
  | _ => 0

/-- How deep the deepest item is nested. -/
def depthOfItems : List Json → Nat
  | [] => 0
  | item :: rest => max item.depth (depthOfItems rest)

/-- How deep the deepest member is nested. -/
def depthOfMembers : List (String × Json) → Nat
  | [] => 0
  | (_, value) :: rest => max value.depth (depthOfMembers rest)

end

/-- The value of a member; an absent member and `null` are the same. -/
def member? (json : Json) (name : String) : Option Json :=
  match json with
  | .object members =>
      match members.lookup name with
      | some .null | none => none
      | some value => some value
  | _ => none

/-- The value of a member; without the member `null`, which stands for the default. -/
def get (json : Json) (name : String) : Json := orNull (json.member? name)

/-- Whether there is a member, be it `null`. -/
def has (json : Json) (name : String) : Bool :=
  match json with
  | .object members => members.any (·.1 == name)
  | _ => false

/-- The integer that decimal text stands for; a sign may stand in front. -/
def intOfText? (text : String) : Option Int :=
  match text.toList with
  | '+' :: digits => (String.ofList digits).toNat?.map Int.ofNat
  | _ => text.toInt?

/-- An integer, given as a number or as decimal text. -/
def asInt : Json → JsonResult Int
  | .null => .ok 0
  | .number value => .ok value
  | .text digits =>
      match intOfText? digits with
      | some value => .ok value
      | none => .error (.expected "integer")
  | _ => .error (.expected "integer")

/-- An integer that is not negative. -/
def asNat (json : Json) : JsonResult Nat := do
  let value ← json.asInt
  if value < 0 then throw (.expected "natural number") else return value.toNat

/-- A text. -/
def asText : Json → JsonResult String
  | .null => .ok ""
  | .text value => .ok value
  | _ => .error (.expected "text")

/-- A truth value. -/
def asBool : Json → JsonResult Bool
  | .null => .ok false
  | .bool value => .ok value
  | _ => .error (.expected "truth value")

/-- A list. -/
def asList : Json → JsonResult (List Json)
  | .null => .ok []
  | .list items => .ok items
  | _ => .error (.expected "list")

/-- A byte string in hexadecimal. -/
def asBytes (json : Json) : JsonResult Bytes := do
  match Hex.toBytes? (← json.asText) with
  | some bytes => return bytes
  | none => throw (.expected "hexadecimal text")

/-- A number in hexadecimal. -/
def asHexNat (json : Json) : JsonResult Nat := do
  match Hex.toNat? (← json.asText) with
  | some value => return value
  | none => throw (.expected "hexadecimal text")

/-- A word of 32 bits. -/
def asUInt32 (json : Json) : JsonResult UInt32 := return UInt32.ofInt (← json.asInt)

/-- A word of 64 bits. -/
def asUInt64 (json : Json) : JsonResult UInt64 := return UInt64.ofInt (← json.asInt)

/-- A signed word of 32 bits. -/
def asInt32 (json : Json) : JsonResult Int32 := return Int32.ofInt (← json.asInt)

/-- A signed word of 64 bits. -/
def asInt64 (json : Json) : JsonResult Int64 := return Int64.ofInt (← json.asInt)

/-- The text of a member. -/
def getText (json : Json) (name : String) : JsonResult String := (json.get name).asText

/-- Whether a member is true. -/
def flag (json : Json) (name : String) : JsonResult Bool := (json.get name).asBool

/-- The items of a member. -/
def items (json : Json) (name : String) : JsonResult (List Json) := (json.get name).asList

/-- The number of a member that has a fallback. -/
def natOr (json : Json) (name : String) (fallback : Nat) : JsonResult Nat :=
  match json.member? name with
  | some value => value.asNat
  | none => .ok fallback

/-- The text of a member that has a fallback. -/
def textOr (json : Json) (name fallback : String) : JsonResult String :=
  match json.member? name with
  | some value => value.asText
  | none => .ok fallback

end Json

end ProtoWire
