import ProtoWire.Source.Hidden

/-! # Quoted text

Text is quoted so that it reads back: quotes, backslashes and characters that do not show are
escaped.
-/

namespace ProtoWire.Source

/-- The escape of a character by its number in hexadecimal. -/
def numberEscape (c : Char) : String :=
  "\\u\x7b" ++ String.ofList (Nat.toDigits 16 c.toNat) ++ "\x7d"

/-- The escape of a null character, which octal digits must not follow. -/
def nullEscape (rest : List Char) : String :=
  match rest with
  | c :: _ => if '0' ≤ c && c ≤ '7' then "\\x00" else "\\0"
  | [] => "\\0"

/-- The text of characters between quotes. -/
def quotedChars : List Char → String
  | [] => ""
  | c :: rest =>
      let text :=
        match c with
        | '\x00' => nullEscape rest
        | '\t' => "\\t"
        | '\n' => "\\n"
        | '\r' => "\\r"
        | '"' => "\\\""
        | '\\' => "\\\\"
        | _ => if isHidden c then numberEscape c else c.toString
      text ++ quotedChars rest

/-- Text between quotes. -/
def quoted (text : String) : String := "\"" ++ quotedChars text.toList ++ "\""

end ProtoWire.Source
