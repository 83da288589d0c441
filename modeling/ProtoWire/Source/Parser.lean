import ProtoWire.Source.Literal

/-! # Reading trees

Trees are read from first to last. What is read is written at the same time, so that the text of
what was read is at hand, in the order in which it is to be written. A group is read by a reader of
its own; trees that it leaves over are an error once everything else is read.
-/

namespace ProtoWire.Source

/-! ## Errors -/

/-- What is wrong with a source text. -/
inductive Complaint where
  /-- Nothing may stand here. -/
  | unexpected
  | expected (what : String)
  | instead (found wanted : String)
  /-- A reserved word stands where a name is expected. -/
  | reserved (word : String)
  | tooLarge
  | invalidDigit
  | forbidden (what : String)
deriving DecidableEq, Repr

/-- The wording of a complaint. -/
def Complaint.message : Complaint → String
  | .unexpected => "unexpected token"
  | .expected what => s!"expected {what}"
  | .instead found wanted => s!"unexpected {found}, expected {wanted}"
  | .reserved word => s!"expected identifier, found keyword `{word}`"
  | .tooLarge => "number too large to fit in target type"
  | .invalidDigit => "invalid digit found in string"
  | .forbidden what => what

/-- The complaint that none of several things came. -/
def Complaint.noneOf : List String → Complaint
  | [] => .unexpected
  | [only] => .expected only
  | [first, second] => .expected s!"{first} or {second}"
  | several => .expected ("one of: " ++ ", ".intercalate several)

/-- A complaint about the place where reading stopped. -/
structure ParseError where
  complaint : Complaint
  /-- Whether nothing was left to read there. -/
  atEnd : Bool
deriving DecidableEq, Repr

/-- The wording of an error. -/
def ParseError.message : ParseError → String
  | ⟨.unexpected, true⟩ => "unexpected end of input"
  | ⟨complaint, true⟩ => "unexpected end of input, " ++ complaint.message
  | ⟨complaint, false⟩ => complaint.message

/-! ## Looking ahead -/

/-- Whether trees start with the characters of a symbol, each joined to the next. -/
def startsWithSymbol : List Char → List Tree → Bool
  | [], _ => true
  | [c], .symbol char _ :: _ => char == c
  | c :: more, .symbol char joined :: rest => char == c && joined && startsWithSymbol more rest
  | _ :: _, _ => false

/-- Whether trees start with a symbol. -/
def atSymbol (symbol : String) (trees : List Tree) : Bool := startsWithSymbol symbol.toList trees

/-- Whether trees start with a given word. -/
def atWord (text : String) : List Tree → Bool
  | .word word :: _ => word == text
  | _ => false

/-- Whether trees start with a word, reserved or not. -/
def atAnyWord : List Tree → Bool
  | .word _ :: _ => true
  | _ => false

/-- The words that are no names. -/
def reservedWords : List String := [
  "_", "abstract", "as", "async", "await", "become", "box", "break", "const", "continue", "crate",
  "do", "dyn", "else", "enum", "extern", "false", "final", "fn", "for", "if", "impl", "in", "let",
  "loop", "macro", "match", "mod", "move", "mut", "override", "priv", "pub", "ref", "return",
  "Self", "self", "static", "struct", "super", "trait", "true", "try", "type", "typeof", "unsafe",
  "unsized", "use", "virtual", "where", "while", "yield"]

/-- Whether trees start with a name. -/
def atName : List Tree → Bool
  | .word word :: _ => !reservedWords.contains word
  | _ => false

/-- Whether trees start with a lifetime. -/
def atLifetime : List Tree → Bool
  | .lifetime _ :: _ => true
  | _ => false

/-- Whether trees start with a group in brackets of some kind. -/
def atGroup (bracket : Bracket) : List Tree → Bool
  | .group found _ :: _ => found == bracket
  | _ => false

/-- Whether trees start with a literal. -/
def atLiteral (trees : List Tree) : Bool := (literalAt? trees).isSome

/-- Whether trees start with quoted text. -/
def atText (trees : List Tree) : Bool :=
  match literalAt? trees with
  | some (.text _, _) => true
  | _ => false

/-- Something that trees may start with. -/
inductive Front where
  | symbol (spelling : String)
  | word (spelling : String)
  | name
  | lifetime
  | literal
  | text
  | group (bracket : Bracket)
deriving DecidableEq, Repr

namespace Front

/-- What it is called. -/
def description : Front → String
  | .symbol spelling | .word spelling => s!"`{spelling}`"
  | .name => "identifier"
  | .lifetime => "lifetime"
  | .literal => "literal"
  | .text => "string literal"
  | .group bracket => bracket.description

/-- Whether trees start with it. -/
def starts (trees : List Tree) : Front → Bool
  | .symbol spelling => atSymbol spelling trees
  | .word spelling => atWord spelling trees
  | .name => atName trees
  | .lifetime => atLifetime trees
  | .literal => atLiteral trees
  | .text => atText trees
  | .group bracket => atGroup bracket trees

end Front

/-! ## Readers -/

/-- How far reading has come. -/
structure Cursor where
  rest : List Tree
  written : String := ""
  /-- The brackets of the first group that was not read to its end. -/
  leftover : Option Bracket := none

/-- A reader of trees. -/
abbrev Parser := StateT Cursor (Except ParseError)

namespace Parser

/-- The trees that are not read yet. -/
def ahead : Parser (List Tree) := return (← get).rest

/-- One turn for each tree that is not read yet, and one more. -/
def turns : Parser (List Unit) := return List.replicate ((← ahead).length + 1) ()

/-- Fails, telling whether the trees have come to an end. -/
def fail (complaint : Complaint) : Parser α := do
  throw ⟨complaint, (← ahead).isEmpty⟩

/-- Fails without telling whether the trees have come to an end. -/
def failHere (complaint : Complaint) : Parser α := throw ⟨complaint, false⟩

/-- Fails because none of several things comes next. One that does come, and only does not go on as
it should, is not named. -/
def failAmong (fronts : List Front) : Parser α := do
  let trees ← ahead
  fail (.noneOf ((fronts.filter fun front => !front.starts trees).map (·.description)))

/-- Writes a text. -/
def write (text : String) : Parser Unit :=
  modify fun cursor => { cursor with written := cursor.written ++ text }

/-- Reads trees as they are. -/
def take (count : Nat) : Parser Unit :=
  modify fun cursor => { cursor with
    rest := cursor.rest.drop count
    written := cursor.written ++ writeTrees (cursor.rest.take count) }

/-- Passes over trees without writing them. -/
def skip (count : Nat) : Parser Unit :=
  modify fun cursor => { cursor with rest := cursor.rest.drop count }

/-- Reads with a reader and holds back what it writes. -/
def capture (read : Parser α) : Parser (α × String) := do
  let before := (← get).written
  modify fun cursor => { cursor with written := "" }
  let value ← read
  let text := (← get).written
  modify fun cursor => { cursor with written := before }
  return (value, text)

/-- Goes back to what was written at an earlier place, and writes what was read since then as it
is. -/
def writeAsIs (start : Cursor) : Parser Unit :=
  modify fun cursor => { cursor with
    written := start.written
      ++ writeTrees (start.rest.take (start.rest.length - cursor.rest.length)) }

/-- Reads with a reader that tells whether what it reads is to be written as it is. -/
def asIsIf (read : Parser Bool) : Parser Bool := do
  let start ← get
  let isAsIs ← read
  if isAsIs then writeAsIs start
  return isAsIs

/-- Reads with a reader, and writes what it reads as it is. -/
def asIs (read : Parser α) : Parser α := do
  let start ← get
  let value ← read
  writeAsIs start
  return value

/-- Reads with a reader if that is possible, and else nothing. -/
def attempt (read : Parser α) : Parser (Option α) := fun cursor =>
  match read.run cursor with
  | .ok (value, after) => .ok (some value, after)
  | .error _ => .ok (none, cursor)

/-- Reads with a reader, and tells whether a group in curly braces was read last. -/
def endsInBraces (read : Parser α) : Parser (α × Bool) := do
  let before ← ahead
  let value ← read
  let taken := before.take (before.length - (← ahead).length)
  return (value, taken.getLast?.any fun tree => atGroup .curly [tree])

/-- Reads a symbol if it comes next. -/
def symbol? (symbol : String) : Parser Bool := do
  if atSymbol symbol (← ahead) then
    take symbol.length
    return true
  else return false

/-- Reads a symbol. -/
def symbol (symbol : String) : Parser Unit := do
  unless ← symbol? symbol do failHere (.expected s!"`{symbol}`")

/-- Reads a given word if it comes next. -/
def word? (word : String) : Parser Bool := do
  if atWord word (← ahead) then
    take 1
    return true
  else return false

/-- Reads a given word. -/
def word (word : String) : Parser Unit := do
  unless ← word? word do fail (.expected s!"`{word}`")

/-- Reads a word, reserved or not. -/
def anyWord : Parser String := do
  match ← ahead with
  | .word word :: _ =>
      take 1
      return word
  | _ => fail (.expected "ident")

/-- Reads a name. -/
def name : Parser String := do
  match ← ahead with
  | .word word :: _ =>
      if reservedWords.contains word then fail (.reserved word)
      else
        take 1
        return word
  | _ => fail (.expected "identifier")

/-- Reads a lifetime. -/
def lifetime : Parser Unit := do
  if atLifetime (← ahead) then take 1 else fail (.expected "lifetime")

/-- Reads a literal if one comes next. -/
def literal? : Parser (Option Literal) := do
  match literalAt? (← ahead) with
  | some (literal, count) =>
      take count
      return some literal
  | none => return none

/-- Reads a group in brackets of some kind as it is. -/
def wholeGroup (bracket : Bracket) : Parser (List Tree) := do
  match ← ahead with
  | .group found trees :: _ =>
      if found = bracket then
        take 1
        return trees
      else fail (.expected bracket.description)
  | _ => fail (.expected bracket.description)

/-- Reads a group in brackets of some kind with a reader for what is inside, and goes on with a
reader for what is behind it. That trees inside are left over shows only after all that. -/
def groupThen (bracket : Bracket) (read : Parser α) (behind : α → Parser β) : Parser β :=
  fun outside =>
    match outside.rest with
    | .group found trees :: rest =>
        if found = bracket then do
          let (value, inside) ← read.run ⟨trees, "", outside.leftover⟩
          let written := outside.written ++ bracket.opening.toString ++ inside.written
            ++ bracket.closing.toString
          let (result, after) ← (behind value).run ⟨rest, written, inside.leftover⟩
          let leftover := after.leftover.or (if inside.rest.isEmpty then none else some bracket)
          return (result, { after with leftover })
        else fail (.expected bracket.description) outside
    | _ => fail (.expected bracket.description) outside

/-- Reads a group in brackets of some kind with a reader for what is inside. -/
def group (bracket : Bracket) (read : Parser α) : Parser α := groupThen bracket read pure

/-- Reads items with a symbol between them, up to where they end; after the last item there may be
the symbol too. -/
def separated (mark : String) (ends : List Tree → Bool) (item : Parser α) :
    Parser (List α) := do
  let mut items := #[]
  for _ in ← turns do
    if ends (← ahead) then break
    items := items.push (← item)
    if ends (← ahead) then break
    symbol mark
  return items.toList

/-- Reads items with commas between them up to the end. -/
def commaSeparated (item : Parser α) : Parser (List α) := separated "," List.isEmpty item

/-- Reads items with a symbol between them as long as the symbol comes, up to where they end. -/
def joined (mark : String) (ends : List Tree → Bool) (item : Parser α) : Parser (List α) := do
  let mut items := #[]
  for _ in ← turns do
    if ends (← ahead) then break
    items := items.push (← item)
    unless ← symbol? mark do break
  return items.toList

/-- Reads with a reader up to the end. -/
def untilEnd (read : Parser α) : Parser Unit := do
  for _ in ← turns do
    if (← ahead).isEmpty then break
    let _ ← read

/-- Reads trees to their end. -/
def readAll (read : Parser α) (trees : List Tree) : Except ParseError α := do
  let (value, cursor) ← read.run { rest := trees }
  match cursor.leftover with
  | some bracket => throw ⟨.instead "token" s!"`{bracket.closing}`", false⟩
  | none =>
      if cursor.rest.isEmpty then return value
      else throw ⟨.unexpected, false⟩

end Parser

end ProtoWire.Source
