/-! # Classes of characters

A source text is cut by classes of its characters: blanks separate, words start with one class and
go on with another, and symbols are single characters.
-/

namespace ProtoWire.Source

/-- Whether a character is a blank: a space of any width, the end of a line or a page, or a mark of
the writing direction. -/
def isBlank (c : Char) : Bool :=
  let n := c.toNat
  (0x09 ≤ n && n ≤ 0x0D) || n == 0x20 || n == 0x85 || n == 0xA0 || n == 0x1680
    || (0x2000 ≤ n && n ≤ 0x200A) || n == 0x200E || n == 0x200F || n == 0x2028 || n == 0x2029
    || n == 0x202F || n == 0x205F || n == 0x3000

/-- Whether a word may start with a character: a letter, an underscore, or any character outside
ASCII that is no blank. -/
def startsWord (c : Char) : Bool := c.isAlpha || c == '_' || (0x80 ≤ c.toNat && !isBlank c)

/-- Whether a word may go on with a character. -/
def continuesWord (c : Char) : Bool := startsWord c || c.isDigit

/-- The characters that are symbols of their own. -/
def symbolCharacters : List Char := "~!@#$%^&*-=+|;:,<.>/?".toList

/-- Whether a character is a symbol. -/
def isSymbol (c : Char) : Bool := symbolCharacters.contains c

end ProtoWire.Source
