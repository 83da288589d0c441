import ProtoWire.Source.Path

/-! # Generic parameters

What is declared may have parameters in angle brackets: lifetimes, constants and types, with bounds
on them; more conditions may follow. Lifetimes are written before all other parameters, and what
turns out to be empty is not written.
-/

namespace ProtoWire.Source.Grammar

open Source.Parser

/-! ## Constants -/

/-- Reads a constant argument: a literal, a name or a block. -/
def constant (grammar : Grammar) : Parser Unit := do
  if (← literal?).isSome then return
  let trees ← ahead
  if atName trees then take 1
  else if atGroup .curly trees then grammar.body
  else fail .unexpected

/-! ## Parameters -/

/-- Reads a colon and the bounds behind it, if a colon comes next. Without bounds it is not
written. -/
def colonBounds (ends : List Tree → Bool) (bound : Parser α) : Parser Unit := do
  let (found, text) ← capture do
    if ← symbol? ":" then joined "+" ends bound else return []
  unless found.isEmpty do write text

/-- Whether the bounds of a lifetime end before trees. -/
def endsLifetimeBounds (trees : List Tree) : Bool :=
  trees.isEmpty || atSymbol "," trees || atAngleEnd trees

/-- Whether the bounds of a type parameter end before trees. -/
def endsParameterBounds (trees : List Tree) : Bool :=
  endsLifetimeBounds trees || atSymbol "=" trees

/-- Reads a parameter that is a lifetime. -/
def lifetimeParameter : Parser Unit := do
  lifetime
  colonBounds endsLifetimeBounds lifetime

/-- Reads a parameter that is a type. -/
def typeParameter (grammar : Grammar) : Parser Unit := do
  let _ ← name
  colonBounds endsParameterBounds (grammar.bound false true)
  if ← symbol? "=" then
    let _ ← grammar.type true

/-- Reads a parameter that is a constant. -/
def constantParameter (grammar : Grammar) : Parser Unit := do
  word "const"
  let _ ← name
  symbol ":"
  let _ ← grammar.type true
  if ← symbol? "=" then grammar.constant

/-- Reads a parameter in angle brackets, and tells whether it is a lifetime. -/
def parameter (grammar : Grammar) : Parser Bool := do
  let _ ← grammar.outerAttributes
  let trees ← ahead
  if atLifetime trees then
    lifetimeParameter
    return true
  else if atName trees then
    grammar.typeParameter
    return false
  else if atWord "const" trees then
    grammar.constantParameter
    return false
  else if atWord "_" trees then
    take 1
    return false
  else failAmong [.lifetime, .name, .word "const"]

/-- Reads parameters, if there are angle brackets for them, and tells whether there are any; without
any nothing is written. The second answer is whether there are angle brackets. -/
def parameters (grammar : Grammar) : Parser (Bool × Bool) := do
  unless atSymbol "<" (← ahead) do return (false, false)
  let (found, text) ← capture do
    symbol "<"
    let found ← lifetimesFirst id grammar.parameter
    symbol ">"
    return found
  unless found.isEmpty do write text
  return (!found.isEmpty, true)

/-! ## What something holds for -/

/-- Reads one of the parameters that something holds for. -/
def boundParameter (grammar : Grammar) : Parser Unit := do
  let _ ← grammar.outerAttributes
  let trees ← ahead
  if atName trees then grammar.typeParameter
  else if atLifetime trees then lifetimeParameter
  else if atWord "const" trees then grammar.constantParameter
  else failAmong [.name, .lifetime, .word "const"]

/-- Reads the parameters that something holds for, if they come next. -/
def boundLifetimes? (grammar : Grammar) : Parser Bool := do
  unless ← word? "for" do return false
  symbol "<"
  let _ ← separated "," atAngleEnd grammar.boundParameter
  symbol ">"
  return true

/-! ## Conditions -/

/-- Whether conditions, or the bounds in one of them, end before trees. -/
def endsConditions (trees : List Tree) : Bool :=
  trees.isEmpty || atGroup .curly trees || atSymbol "," trees || atSymbol ";" trees
    || (atSymbol ":" trees && !atSymbol "::" trees) || atSymbol "=" trees

/-- Whether the bounds of a lifetime in a condition end before trees. -/
def endsLifetimeCondition (trees : List Tree) : Bool :=
  endsConditions trees || atSymbol ":" trees

/-- Reads a condition: bounds on a lifetime or on a type. -/
def condition (grammar : Grammar) : Parser Unit := do
  let trees ← ahead
  if atLifetime trees && atSymbol ":" (trees.drop 1) then
    take 1
    symbol ":"
    let _ ← joined "+" endsLifetimeCondition lifetime
  else
    let _ ← grammar.boundLifetimes?
    let _ ← grammar.type true
    symbol ":"
    let _ ← joined "+" endsConditions (grammar.bound false true)

/-- Whether trees start parameters rather than a path that belongs to a type. -/
def startsParameters (trees : List Tree) : Bool :=
  let first := trees.drop 1
  let second := trees.drop 2
  atSymbol "<" trees
    && (atSymbol ">" first || atSymbol "#" first || atWord "const" first
      || ((atLifetime first || atName first)
        && (atSymbol ">" second || atSymbol "," second || atSymbol "=" second
          || (atSymbol ":" second && !atSymbol "::" second))))

/-- Reads conditions on parameters, if they come next; without any nothing is written. Tells whether
they come. -/
def conditions? (grammar : Grammar) : Parser Bool := do
  let trees ← ahead
  unless atWord "where" trees do return false
  if startsParameters (trees.drop 1) then
    fail (.forbidden
      "generic parameters on `where` clauses are reserved for future use")
  let (found, text) ← capture do
    word "where"
    joined "," endsConditions grammar.condition
  unless found.isEmpty do write text
  return true

end ProtoWire.Source.Grammar
