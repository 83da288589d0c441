/-! # Types as they are written

The type of a declared field is kept as it is written. What matters of it is whether it is a path
whose last segment is a given container, and then the first of the container's arguments.
-/

namespace ProtoWire.Source

/-- A type as it is written, without spaces. -/
inductive TypeText where
  | plain (text : String)
  /-- A path whose last segment has arguments in angle brackets, the first of which is a type. -/
  | container (text name : String) (argument : TypeText)
deriving DecidableEq, Repr

namespace TypeText

/-- The text of a type. -/
def text : TypeText → String
  | .plain text | .container text _ _ => text

/-- The type inside a container: the first argument of the last segment of a path, when the segment
has the container's name. -/
def inner? (name : String) : TypeText → Option TypeText
  | .plain _ => none
  | .container _ found argument => if found = name then some argument else none

end TypeText

/-- What else matters of a type to what stands around it. -/
inductive TypeForm where
  /-- A single name, perhaps with arguments. -/
  | name
  /-- Any other path that does not start with a type. -/
  | path
  /-- A single bound without a word in front, in parentheses of its own or not. -/
  | bound (isRound : Bool)
  | other
deriving DecidableEq, Repr

/-- A type that was read. -/
structure ReadType where
  text : TypeText
  form : TypeForm
deriving DecidableEq, Repr

/-- What a bound is. -/
inductive BoundForm where
  | lifetime
  | trait
  /-- A trait whose functions may be evaluated early. -/
  | constTrait
  /-- A list of what is captured. -/
  | captures
deriving DecidableEq, Repr

/-- An argument in angle brackets. -/
inductive GenericArgument where
  | lifetime
  | type (type : TypeText)
  /-- A constant, or what is bound to a name. -/
  | other
deriving DecidableEq, Repr

end ProtoWire.Source
