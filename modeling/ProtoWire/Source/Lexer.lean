import ProtoWire.Source.Character
import ProtoWire.Source.Literal
import ProtoWire.Source.Quoted

/-! # Cutting source text

A text is cut into tokens from its start: blanks and comments are skipped, and of every other
character the kind of token follows that starts with it. Comments of documentation count as the
attributes they stand for. Tokens between brackets become groups.
-/

namespace ProtoWire.Source

/-! ## Comments -/

/-- Cuts a text at the end of its first line. A carriage return in front of the line feed belongs
to neither part. -/
def cutLine : List Char → List Char × List Char
  | [] => ([], [])
  | '\n' :: rest => ([], '\n' :: rest)
  | '\r' :: '\n' :: rest => ([], '\n' :: rest)
  | c :: rest =>
      let (line, after) := cutLine rest
      (c :: line, after)

/-- Cuts a text behind the end of the comment it is in, `depth` comments deep; comments may hold
comments. The end of the outermost comment belongs to neither part. -/
def cutComment : (depth : Nat) → List Char → Option (List Char × List Char)
  | _, [] => none
  | 0, rest => some ([], rest)
  | 1, '*' :: '/' :: rest => some ([], rest)
  | depth + 1, '*' :: '/' :: rest => do
      let (inside, after) ← cutComment depth rest
      return ('*' :: '/' :: inside, after)
  | depth + 1, '/' :: '*' :: rest => do
      let (inside, after) ← cutComment (depth + 2) rest
      return ('/' :: '*' :: inside, after)
  | depth + 1, c :: rest => do
      let (inside, after) ← cutComment (depth + 1) rest
      return (c :: inside, after)

/-- A comment at the start of a text. -/
inductive Comment where
  /-- Means nothing. -/
  | plain
  /-- Documents what comes next, or what it stands in. -/
  | documentation (isInner : Bool) (text : String)

/-- Cuts off the comment that a text starts with, if it starts with one and that one ends. -/
def cutComment? : List Char → Option (Comment × List Char)
  | '/' :: '/' :: rest =>
      match rest, cutLine rest with
      | '/' :: '/' :: _, (_, after) => some (.plain, after)
      | '/' :: _, (line, after) => some (.documentation false (String.ofList (line.drop 1)), after)
      | '!' :: _, (line, after) => some (.documentation true (String.ofList (line.drop 1)), after)
      | _, (_, after) => some (.plain, after)
  | '/' :: '*' :: rest => do
      let (inside, after) ← cutComment 1 rest
      match inside with
      | [] | ['*'] | '*' :: '*' :: _ => some (.plain, after)
      | '*' :: text => some (.documentation false (String.ofList text), after)
      | '!' :: text => some (.documentation true (String.ofList text), after)
      | _ => some (.plain, after)
  | _ => none

/-! ## Words and numbers -/

/-- Cuts off the characters that continue a word. -/
def cutWord (chars : List Char) : List Char × List Char :=
  (chars.takeWhile continuesWord, chars.dropWhile continuesWord)

/-- Cuts off a word that may be missing. -/
def cutSuffix (chars : List Char) : List Char × List Char :=
  match chars with
  | c :: _ => if startsWord c then cutWord chars else ([], chars)
  | [] => ([], [])

/-- Puts the suffix of a literal behind it. -/
def withSuffix (literal rest : List Char) : List Char × List Char :=
  let (suffix, rest) := cutSuffix rest
  (literal ++ suffix, rest)

/-- Cuts off digits and the underscores among them. -/
def cutDigits (chars : List Char) : List Char × List Char :=
  (chars.takeWhile fun c => c.isDigit || c == '_', chars.dropWhile fun c => c.isDigit || c == '_')

/-- Cuts off a fraction. After its dot there is neither another dot nor a word. -/
def cutFraction? : List Char → Option (List Char × List Char)
  | '.' :: rest =>
      match rest with
      | c :: _ =>
          if c == '.' || startsWord c then none
          else
            let (digits, rest) := cutDigits rest
            some ('.' :: digits, rest)
      | [] => some (['.'], [])
  | _ => none

/-- Cuts off an exponent: the mark, a sign perhaps, and digits. -/
def cutExponent? : List Char → Option (List Char × List Char)
  | [] => none
  | mark :: rest =>
      let (digits, rest) := cutDigits rest
      if mark != 'e' && mark != 'E' then none
      else if digits.any Char.isDigit then some (mark :: digits, rest)
      else
        match rest with
        | sign :: rest =>
            let (more, rest) := cutDigits rest
            if (sign == '+' || sign == '-') && more.any Char.isDigit then
              some (mark :: digits ++ sign :: more, rest)
            else none
        | [] => none

/-- Whether characters are digits in a base, with a suffix perhaps, which does not start with a
greater decimal digit. -/
def isInteger (base : Nat) (chars : List Char) : Bool :=
  let (digits, suffix) := chars.span fun c => c == '_' || Literal.isDigitIn base c
  digits.any (Literal.isDigitIn base) && !suffix.head?.any Char.isDigit

/-- Whether characters are an integer: decimal, or with the base in front. -/
def isAnyInteger : List Char → Bool
  | '0' :: 'x' :: rest => isInteger 16 rest
  | '0' :: 'o' :: rest => isInteger 8 rest
  | '0' :: 'b' :: rest => isInteger 2 rest
  | _ => true

/-- Cuts off an integer. -/
def cutInteger? (chars : List Char) : Option (List Char × List Char) :=
  let (word, rest) := cutWord chars
  if isAnyInteger word then some (word, rest) else none

/-- Cuts off a number: digits with a fraction or an exponent, or an integer. -/
def cutNumber? (chars : List Char) : Option (List Char × List Char) :=
  let (whole, rest) := cutDigits chars
  match rest with
  | '.' :: _ =>
      match cutFraction? rest with
      | none => cutInteger? chars
      | some (fraction, rest) =>
          match cutExponent? rest with
          | some (exponent, rest) => some (withSuffix (whole ++ fraction ++ exponent) rest)
          | none => some (withSuffix (whole ++ fraction) rest)
  | _ =>
      match cutExponent? rest with
      | some (exponent, rest) => some (withSuffix (whole ++ exponent) rest)
      | none => cutInteger? chars

/-! ## Quoted literals -/

/-- Cuts a quoted literal behind its closing quote; a backslash takes the next character with
it. -/
def cutQuoted (quote : Char) : List Char → Option (List Char × List Char)
  | [] => none
  | '\\' :: c :: rest => do
      let (inside, after) ← cutQuoted quote rest
      return ('\\' :: c :: inside, after)
  | c :: rest =>
      if c = quote then some ([c], rest)
      else do
        let (inside, after) ← cutQuoted quote rest
        return (c :: inside, after)

/-- Cuts a raw literal behind its closing quote, which has `hashes` number signs behind it. -/
def cutRaw (hashes : Nat) : List Char → Option (List Char × List Char)
  | [] => none
  | c :: rest =>
      if c = '"' && rest.take hashes == List.replicate hashes '#' then
        some (c :: rest.take hashes, rest.drop hashes)
      else do
        let (inside, after) ← cutRaw hashes rest
        return (c :: inside, after)

/-- Cuts off a raw literal, from its number signs on. -/
def cutRaw? (chars : List Char) : Option (List Char × List Char) :=
  let hashes := chars.takeWhile (· == '#')
  match chars.drop hashes.length with
  | '"' :: rest => do
      let (inside, after) ← cutRaw hashes.length rest
      return (hashes ++ '"' :: inside, after)
  | _ => none

/-- Cuts off a quoted literal with a mark in front. -/
def cutMarked? (mark : List Char) (cut : List Char → Option (List Char × List Char))
    (rest : List Char) : Option (List Char × List Char) := do
  let (inside, after) ← cut rest
  return withSuffix (mark ++ inside) after

/-- Cuts off the quoted literal that a text starts with, if it starts with one. -/
def cutQuoted? : List Char → Option (List Char × List Char)
  | '"' :: rest => cutMarked? ['"'] (cutQuoted '"') rest
  | 'b' :: '"' :: rest => cutMarked? ['b', '"'] (cutQuoted '"') rest
  | 'c' :: '"' :: rest => cutMarked? ['c', '"'] (cutQuoted '"') rest
  | 'b' :: '\'' :: rest => cutMarked? ['b', '\''] (cutQuoted '\'') rest
  | 'r' :: rest => cutMarked? ['r'] cutRaw? rest
  | 'b' :: 'r' :: rest => cutMarked? ['b', 'r'] cutRaw? rest
  | 'c' :: 'r' :: rest => cutMarked? ['c', 'r'] cutRaw? rest
  | '\'' :: '\\' :: rest => cutMarked? ['\''] (cutQuoted '\'') ('\\' :: rest)
  | '\'' :: c :: '\'' :: rest => some (withSuffix ['\'', c, '\''] rest)
  | _ => none

/-! ## Tokens -/

/-- A piece of a text: a token, or a bracket. -/
inductive Piece where
  | leaf (tree : Tree)
  | opening (bracket : Bracket)
  | closing (bracket : Bracket)

/-- A symbol that no other follows. -/
def loneSymbol (c : Char) : Piece := .leaf (.symbol c false)

/-- The pieces of the attribute that documentation stands for. -/
def documentationPieces (isInner : Bool) (text : String) : List Piece :=
  (loneSymbol '#' :: if isInner then [loneSymbol '!'] else []) ++
    [.opening .square, .leaf (.word "doc"), loneSymbol '=', .leaf (.literal (quoted text)),
      .closing .square]

/-- Whether a text starts with a symbol; the start of a comment and the quote of a lifetime are
such and no such one. -/
def symbolFollows (rest : List Char) : Bool :=
  match rest with
  | '/' :: '/' :: _ | '/' :: '*' :: _ => false
  | c :: _ => isSymbol c || c == '\''
  | [] => false

/-- Cuts off a word; a raw one is marked, so that it may be a keyword. -/
def cutName? (chars : List Char) : Option (List Char × List Char) :=
  match chars with
  | 'r' :: '#' :: c :: rest =>
      if startsWord c then
        let (word, rest) := cutWord (c :: rest)
        some ('r' :: '#' :: word, rest)
      else none
  | c :: _ => if startsWord c then some (cutWord chars) else none
  | [] => none

/-- The mark of a literal that could not be read. -/
def brokenLiteral : List Char := "(/*ERROR*/)".toList

/-- Cuts off the quoted literal that a text starts with, or the mark of one that could not be
read. -/
def cutLiteral? (chars : List Char) : Option (List Char × List Char) :=
  if brokenLiteral.isPrefixOf chars then some (brokenLiteral, chars.drop brokenLiteral.length)
  else cutQuoted? chars

/-- Cuts off the token or bracket that a text starts with. -/
def cutPiece? (c : Char) (rest : List Char) : Option (Piece × List Char) :=
  match cutLiteral? (c :: rest) with
  | some (literal, rest) => some (.leaf (.literal (String.ofList literal)), rest)
  | none =>
      match Bracket.all.find? (·.opening == c), Bracket.all.find? (·.closing == c) with
      | some bracket, _ => some (.opening bracket, rest)
      | none, some bracket => some (.closing bracket, rest)
      | none, none =>
          if c.isDigit then do
            let (number, rest) ← cutNumber? (c :: rest)
            return (.leaf (.literal (String.ofList number)), rest)
          else if c = '\'' then do
            let (name, rest) ← cutName? rest
            return (.leaf (.lifetime (String.ofList (c :: name))), rest)
          else if isSymbol c then some (.leaf (.symbol c (symbolFollows rest)), rest)
          else do
            let (name, rest) ← cutName? (c :: rest)
            return (.leaf (.word (String.ofList name)), rest)

/-- The pieces of a text, at most `fuel` of them with the blanks and comments between them. -/
def piecesFrom : (fuel : Nat) → List Char → Option (List Piece)
  | _, [] => some []
  | 0, _ => none
  | fuel + 1, c :: rest =>
      if isBlank c then piecesFrom fuel rest
      else
        match cutComment? (c :: rest) with
        | some (.plain, rest) => piecesFrom fuel rest
        | some (.documentation isInner text, rest) => do
            return documentationPieces isInner text ++ (← piecesFrom fuel rest)
        | none => do
            let (piece, rest) ← cutPiece? c rest
            return piece :: (← piecesFrom fuel rest)

/-- The pieces of a text. Each has a character of its own. -/
def pieces? (text : String) : Option (List Piece) := piecesFrom text.length text.toList

/-! ## Groups -/

/-- Trees whose brackets are not all closed: the trees read so far within every open bracket, the
innermost first, and outside of all. They are in reverse order. -/
structure Grouping where
  inner : List (Bracket × List Tree) := []
  outer : List Tree := []

namespace Grouping

/-- Puts a tree at the end. -/
def push (tree : Tree) : Grouping → Grouping
  | ⟨[], outer⟩ => ⟨[], tree :: outer⟩
  | ⟨(bracket, trees) :: inner, outer⟩ => ⟨(bracket, tree :: trees) :: inner, outer⟩

/-- Takes in one piece. A closing bracket has to close the innermost open one. -/
def take (grouping : Grouping) : Piece → Option Grouping
  | .leaf tree => some (grouping.push tree)
  | .opening bracket => some { grouping with inner := (bracket, []) :: grouping.inner }
  | .closing bracket =>
      match grouping.inner with
      | (innermost, trees) :: inner =>
          if innermost = bracket then
            some (push (.group bracket trees.reverse) ⟨inner, grouping.outer⟩)
          else none
      | [] => none

end Grouping

/-- The trees of a text, if it is made of tokens and its brackets match. -/
def trees? (text : String) : Option (List Tree) := do
  let grouping ← (← pieces? text).foldlM Grouping.take {}
  if grouping.inner.isEmpty then return grouping.outer.reverse else none

end ProtoWire.Source
