import ProtoWire.Source.Lexer
import ProtoWire.Source.Parser

/-! # Members

A member is named, or told by its position. The number of a position is written without what it can
do without: the base, underscores, zeros in front.
-/

namespace ProtoWire.Source.Parser

/-- The number of a position, from the literal for it. -/
def position (isNegative : Bool) (text : String) : Except Complaint Nat :=
  match Literal.ofText text with
  | .integer _ magnitude =>
      if !(Literal.suffix text.toList).isEmpty then .error (.expected "unsuffixed integer")
      else if isNegative then .error .invalidDigit
      else if magnitude < UInt32.size then .ok magnitude
      else .error .tooLarge
  | _ => .error (.expected "integer literal")

/-- The number of a position, from a part of the text for a nested one. -/
def positionPart (part : String) : Except Complaint Nat :=
  match trees? part with
  | some [.literal text] => position false text
  | some [.symbol '-' _, .literal text] => position true text
  | _ => .error (.forbidden "cannot parse string into token stream")

/-- Takes the value, or fails without telling whether the trees have come to an end. -/
def orFail : Except Complaint α → Parser α
  | .ok value => return value
  | .error complaint => failHere complaint

/-- Reads the name of a member or its position. Tells whether it is a name. -/
def member : Parser Bool := do
  let trees ← ahead
  if atName trees then
    take 1
    return true
  let (isNegative, digits) := match trees with
    | .symbol '-' _ :: rest => (true, rest)
    | _ => (false, trees)
  match literalAt? trees, digits with
  | some (.integer _ _, count), .literal text :: _ =>
      let number ← orFail (position isNegative text)
      skip count
      write (toString number)
      return false
  | _, _ => fail (.expected "identifier or integer")

/-- Reads positions nested in one another, which together look like a number with a fraction, if
they come next. Tells whether a dot follows that belongs to the next member. -/
def nestedPositions? : Parser (Option Bool) := do
  match literalAt? (← ahead) with
  | some (.float, count) =>
      let text := writeTrees ((← ahead).take count)
      let isOpen := text.endsWith "."
      let parts := text.splitOn "."
      let numbers ← (if isOpen then parts.dropLast else parts).mapM (orFail ∘ positionPart)
      skip count
      write (".".intercalate (numbers.map toString) ++ if isOpen then "." else "")
      return some isOpen
  | _ => return none

end ProtoWire.Source.Parser
