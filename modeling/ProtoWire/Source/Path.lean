import ProtoWire.Source.Grammar

/-! # Paths

A path is a list of segments with double colons between them, perhaps behind a type that it
belongs to. A segment may have arguments in angle brackets, where lifetimes are written before all
others.
-/

namespace ProtoWire.Source

/-- The arguments of a segment. -/
inductive SegmentArguments where
  | none
  /-- In angle brackets, with the first of them if it is a type. -/
  | angle (first : Option TypeText)
deriving DecidableEq, Repr

/-- A segment of a path. -/
structure Segment where
  name : String
  arguments : SegmentArguments := .none
deriving DecidableEq, Repr

/-- A path. -/
structure Path where
  /-- Whether it belongs to a type in angle brackets. -/
  isQualified : Bool := false
  /-- Whether it starts with a double colon. -/
  isRooted : Bool := false
  segments : List Segment
deriving DecidableEq, Repr

namespace Path

/-- Whether a path is made of names alone. -/
def isPlain (path : Path) : Bool :=
  !path.isQualified && path.segments.all (·.arguments == .none)

/-- Whether the last segment of a path has no arguments. -/
def endsPlain (path : Path) : Bool := path.segments.getLast?.any (·.arguments == .none)

/-- The names of a path with double colons between them. -/
def text (path : Path) : String := "::".intercalate (path.segments.map (·.name))

/-- Whether a path is a given name and nothing else. -/
def isName (name : String) (path : Path) : Bool :=
  !path.isRooted && path.segments == [⟨name, .none⟩]

/-- What a path is as a type. -/
def form (path : Path) : TypeForm :=
  if path.isQualified then .other
  else if !path.isRooted && path.segments.length == 1 then .name
  else .path

end Path

/-! ## Lists in angle brackets -/

/-- An item's text with the comma that follows it. -/
structure WrittenItem where
  isLifetime : Bool
  text : String
  comma : Bool

/-- Writes items one after the other; a comma is put between two of which the first has none of its
own. -/
def joinItems (items : List WrittenItem) : String :=
  (items.foldl (fun (text, ended) item =>
    ((if ended then text else text ++ ",") ++ item.text ++ (if item.comma then "," else ""),
      item.comma)) ("", true)).1

namespace Grammar

open Source.Parser

/-- Whether trees start with a closing angle bracket. -/
def atAngleEnd (trees : List Tree) : Bool := atSymbol ">" trees

/-- Reads items with commas between them up to a closing angle bracket. Those that are lifetimes are
written before all others. -/
def lifetimesFirst (isLifetime : α → Bool) (item : Parser α) : Parser (List α) := do
  let mut found := #[]
  let mut written := #[]
  for _ in ← turns do
    if atAngleEnd (← ahead) then break
    let (next, text) ← capture item
    found := found.push next
    if atAngleEnd (← ahead) then
      written := written.push ⟨isLifetime next, text, false⟩
      break
    let (_, _) ← capture (symbol ",")
    written := written.push ⟨isLifetime next, text, true⟩
  let items := written.toList
  write (joinItems (items.filter (·.isLifetime) ++ items.filter (!·.isLifetime)))
  return found.toList

/-- Reads arguments in angle brackets. -/
def angleArguments (grammar : Grammar) : Parser SegmentArguments := do
  symbol "<"
  let arguments ← lifetimesFirst (· == .lifetime) grammar.argument
  symbol ">"
  return .angle (match arguments.head? with
    | some (.type type) => some type
    | _ => none)

/-! ## Paths -/

/-- The words that are segments of a path wherever they stand, and have no arguments. -/
def segmentWords : List String := ["super", "self", "crate", "try"]

/-- Reads a segment of a path. In an expression arguments need double colons in front. -/
def segment (grammar : Grammar) (inExpression : Bool) : Parser Segment := do
  let trees ← ahead
  if segmentWords.any (atWord · trees) then return ⟨← anyWord, .none⟩
  let text ← if atWord "Self" trees then anyWord else name
  let trees ← ahead
  if atSymbol "::" trees && atSymbol "<" (trees.drop 2) then
    take 2
    return ⟨text, ← grammar.angleArguments⟩
  else if !inExpression && atSymbol "<" trees && !atSymbol "<=" trees then
    return ⟨text, ← grammar.angleArguments⟩
  else return ⟨text, .none⟩

/-- Reads more segments as long as `goesOn` tells that one follows the double colons. -/
def moreSegments (grammar : Grammar) (inExpression : Bool)
    (goesOn : List Tree → Bool) (first : Segment) : Parser (List Segment) := do
  let mut segments := #[first]
  for _ in ← turns do
    let trees ← ahead
    unless atSymbol "::" trees && goesOn (trees.drop 2) do break
    take 2
    segments := segments.push (← grammar.segment inExpression)
  return segments.toList

/-- Reads a path that belongs to no type. -/
def unqualifiedPath (grammar : Grammar) (inExpression : Bool) : Parser Path := do
  let isRooted ← symbol? "::"
  let first ← grammar.segment inExpression
  let segments ← grammar.moreSegments inExpression (fun trees => !atGroup .round trees) first
  return { isRooted, segments }

/-- Reads a path that may belong to a type in angle brackets. -/
def path (grammar : Grammar) (inExpression : Bool) : Parser Path := do
  if ← symbol? "<" then
    let _ ← grammar.type true
    if ← word? "as" then
      let _ ← grammar.unqualifiedPath false
    symbol ">"
    symbol "::"
    let first ← grammar.segment inExpression
    let segments ← grammar.moreSegments inExpression (fun _ => true) first
    return { isQualified := true, segments }
  else grammar.unqualifiedPath inExpression

/-- Whether trees start a path. -/
def startsPath (trees : List Tree) : Bool :=
  atName trees || ["super", "self", "Self", "crate"].any (atWord · trees)
    || atSymbol "::" trees || atSymbol "<" trees

/-- Whether trees start a segment of a path that is made of names alone. -/
def startsPlainSegment (trees : List Tree) : Bool :=
  atName trees || ["super", "self", "Self", "crate"].any (atWord · trees)

/-- Reads a path that is made of names alone. -/
def plainPath : Parser Path := do
  let isRooted ← symbol? "::"
  let mut segments := #[]
  let mut isOpen := false
  for _ in ← turns do
    unless startsPlainSegment (← ahead) do break
    segments := segments.push ⟨← anyWord, .none⟩
    isOpen ← symbol? "::"
    unless isOpen do break
  if segments.isEmpty then
    segments := segments.push ⟨← name, .none⟩
  if isOpen then fail (.expected "path segment after `::`")
  return { isRooted, segments := segments.toList }

/-! ## Calls of macros -/

/-- Whether trees go on with the mark of a macro. -/
def startsMacroMark (trees : List Tree) : Bool := atSymbol "!" trees && !atSymbol "!=" trees

/-- Reads the arguments of a macro as they are, and tells in which brackets they stand. -/
def macroArguments : Parser Bracket := do
  match ← ahead with
  | .group bracket _ :: _ =>
      take 1
      return bracket
  | _ => fail (.expected "delimiter")

end Grammar

end ProtoWire.Source
