import ProtoWire.Source.Token

/-! # Literals

What a literal stands for: the characters of a quoted text, the value of an integer, and of all
others only their kind. A suffix, which names a type, means nothing.
-/

namespace ProtoWire.Source

/-- A literal. -/
inductive Literal where
  | text (value : String)
  | byteText
  | terminatedText
  | byte
  | character
  /-- An integer by its sign and its magnitude, so that a zero may be negative. -/
  | integer (isNegative : Bool) (magnitude : Nat)
  | float
  | bool (value : Bool)
  /-- The mark of a literal that could not be read. -/
  | broken
deriving DecidableEq, Repr

namespace Literal

/-- The name of a literal's kind. -/
def kind : Literal → String
  | .text _ => "string"
  | .byteText => "byte string"
  | .terminatedText => "unknown"
  | .byte => "byte"
  | .character => "char"
  | .integer _ _ => "int"
  | .float => "float"
  | .bool _ => "bool"
  | .broken => "verbatim"

/-- Whether the literal is a number. -/
def isNumber : Literal → Bool
  | .integer _ _ | .float => true
  | _ => false

/-! ## Numbers -/

/-- The number of a digit of any base up to sixteen. -/
def digitValue (c : Char) : Nat :=
  if c.isDigit then c.toNat - '0'.toNat else c.toLower.toNat - 'a'.toNat + 10

/-- Whether a character is a digit in a base. -/
def isDigitIn (base : Nat) (c : Char) : Bool := c.isAlphanum && digitValue c < base

/-- The number whose digits a text starts with; underscores among them mean nothing. -/
def numberIn (base : Nat) (chars : List Char) : Nat :=
  ((chars.filter (· != '_')).takeWhile (isDigitIn base)).foldl
    (fun value c => base * value + digitValue c) 0

/-- Whether a decimal number has a fraction or an exponent. -/
def hasPoint (chars : List Char) : Bool :=
  match chars.dropWhile fun c => c.isDigit || c == '_' with
  | '.' :: _ => true
  | mark :: rest =>
      (mark == 'e' || mark == 'E') && match rest.dropWhile (· == '_') with
        | c :: _ => c.isDigit || c == '+' || c == '-'
        | [] => false
  | [] => false

/-- The literal that a number is: decimal, or with the base in front. -/
def ofNumber : List Char → Literal
  | '0' :: 'x' :: rest => .integer false (numberIn 16 rest)
  | '0' :: 'o' :: rest => .integer false (numberIn 8 rest)
  | '0' :: 'b' :: rest => .integer false (numberIn 2 rest)
  | chars => if hasPoint chars then .float else .integer false (numberIn 10 chars)

/-- What follows the digits of an integer: the name of a type, or nothing. -/
def suffix : List Char → List Char
  | '0' :: 'x' :: rest => rest.dropWhile fun c => c == '_' || isDigitIn 16 c
  | '0' :: 'o' :: rest => rest.dropWhile fun c => c == '_' || isDigitIn 8 c
  | '0' :: 'b' :: rest => rest.dropWhile fun c => c == '_' || isDigitIn 2 c
  | chars => chars.dropWhile fun c => c == '_' || isDigitIn 10 c

/-- The number with its sign turned. -/
def negated : Literal → Literal
  | .integer isNegative magnitude => .integer (!isNegative) magnitude
  | other => other

/-! ## Quoted text -/

/-- Whether a character is skipped where a line is continued. -/
def isSkipped (c : Char) : Bool := c == ' ' || c == '\t' || c == '\n' || c == '\r'

/-- The characters that quoted text stands for up to its closing quote, at most `fuel` of them. The
end of a line is one line feed however it is written; behind a backslash it stands for nothing,
with the blanks after it. -/
def unquotedFrom : (fuel : Nat) → List Char → List Char
  | 0, _ | _, [] | _, '"' :: _ => []
  | fuel + 1, '\r' :: '\n' :: rest => '\n' :: unquotedFrom fuel rest
  | fuel + 1, '\\' :: 'x' :: high :: low :: rest =>
      Char.ofNat (16 * digitValue high + digitValue low) :: unquotedFrom fuel rest
  | fuel + 1, '\\' :: 'u' :: '\x7b' :: rest =>
      Char.ofNat (numberIn 16 rest) :: unquotedFrom fuel ((rest.dropWhile (· != '\x7d')).drop 1)
  | fuel + 1, '\\' :: c :: rest =>
      match c with
      | 'n' => '\n' :: unquotedFrom fuel rest
      | 't' => '\t' :: unquotedFrom fuel rest
      | 'r' => '\r' :: unquotedFrom fuel rest
      | '0' => '\x00' :: unquotedFrom fuel rest
      | '\n' | '\r' => unquotedFrom fuel (rest.dropWhile isSkipped)
      | other => other :: unquotedFrom fuel rest
  | fuel + 1, c :: rest => c :: unquotedFrom fuel rest

/-- The text that quoted characters stand for. -/
def unquoted (chars : List Char) : String := String.ofList (unquotedFrom chars.length chars)

/-- The characters of a raw literal, from its number signs on: what stands between its quotes. -/
def unquotedRaw (chars : List Char) : String :=
  let hashes := chars.takeWhile (· == '#')
  let inside := (chars.drop (hashes.length + 1)).reverse.dropWhile (· != '"')
  String.ofList (inside.drop 1).reverse

/-- Reads a literal. -/
def ofText (text : String) : Literal :=
  match text.toList with
  | '"' :: rest => .text (unquoted rest)
  | 'r' :: rest => .text (unquotedRaw rest)
  | 'b' :: '\'' :: _ => .byte
  | 'b' :: _ => .byteText
  | 'c' :: _ => .terminatedText
  | '\'' :: _ => .character
  | '(' :: _ => .broken
  | chars => ofNumber chars

end Literal

/-- The literal that trees start with, and the number of trees it takes. A minus sign belongs to
the number behind it. -/
def literalAt? : List Tree → Option (Literal × Nat)
  | .literal text :: _ => some (.ofText text, 1)
  | .word "true" :: _ => some (.bool true, 1)
  | .word "false" :: _ => some (.bool false, 1)
  | .symbol '-' _ :: .literal text :: _ =>
      let literal := Literal.ofText text
      if literal.isNumber then some (literal.negated, 2) else none
  | _ => none

end ProtoWire.Source
