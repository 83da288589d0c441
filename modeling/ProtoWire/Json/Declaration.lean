import ProtoWire.Code.Enumeration
import ProtoWire.Code.Oneof
import ProtoWire.Declaration.Reading
import ProtoWire.Json.Basic

/-! # Declarations as JSON

A declaration is an object that tells its kind, its name, its attributes and its fields or
variants. Types and attributes are given as source text, so the parts are put together to the text
of the declaration, which is then read. The answer is the items of its code, or the fault for which
it is refused.
-/

namespace ProtoWire.Declaration

/-! ## The source text -/

/-- Puts texts on lines of their own, each with a comma behind it, between brackets. -/
def bracketed (bracket : Source.Bracket) (texts : List String) : String :=
  bracket.opening.toString ++ String.join (texts.map (· ++ "\n,")) ++ bracket.closing.toString

/-- The source text of a value of an attribute. -/
def valueText : Json → JsonResult String
  | .number value => .ok (toString value)
  | .bool value => .ok (toString value)
  | .text value => .ok (Source.quoted value)
  | _ => .error (.expected "value")

/-- The source text of an item: a list of its name and, if it has one, its value. -/
def itemText : Json → JsonResult String
  | .list [.text name] | .list [.text name, .null] => .ok name
  | .list [.text name, value] => return name ++ " = " ++ (← valueText value)
  | _ => .error (.expected "item")

/-- The source text of an attribute: a list of items, or text for all of it. -/
def attributeText (json : Json) : JsonResult String := do
  let inside ← match json with
    | .list items => do
        pure (keyword ++ "(" ++ ", ".intercalate (← items.mapM itemText) ++ ")")
    | _ => json.getText "raw"
  return "#[" ++ inside ++ "\n]\n"

/-- The source text of the attributes of an object. -/
def attributesText (json : Json) : JsonResult String := do
  return String.join (← (← json.items "attrs").mapM attributeText)

/-- The source text of a field with a name. -/
def namedFieldText (json : Json) : JsonResult String := do
  return (← attributesText json) ++ (← json.getText "name") ++ " : " ++ (← json.getText "type")

/-- The source text of a field by its position. -/
def positionalFieldText (json : Json) : JsonResult String := do
  return (← attributesText json) ++ (← json.getText "type")

/-- The source text of a variant. -/
def variantText (json : Json) : JsonResult String := do
  let shape ← match json.member? "tuple", json.member? "struct" with
    | some fields, _ => pure (bracketed .round (← (← fields.asList).mapM positionalFieldText))
    | none, some fields => pure (bracketed .curly (← (← fields.asList).mapM namedFieldText))
    | none, none => pure ""
  return (← attributesText json) ++ (← json.getText "name") ++ " " ++ shape

/-- The source text of a declaration. -/
def sourceText (json : Json) : JsonResult String := do
  let fields := json.items "fields"
  let (word, body) ← match ← json.getText "item" with
    | "struct" => pure ("struct", bracketed .curly (← (← fields).mapM namedFieldText))
    | "tuple" => pure ("struct", bracketed .round (← (← fields).mapM positionalFieldText) ++ ";")
    | "unit" => pure ("struct", ";")
    | "union" => pure ("union", bracketed .curly (← (← fields).mapM namedFieldText))
    | "enum" =>
        pure ("enum", bracketed .curly (← (← json.items "variants").mapM variantText))
    | _ => throw (.expected "kind of declaration")
  return (← attributesText json) ++ word ++ " " ++ (← json.getText "name")
    ++ (← json.getText "generics") ++ "\n" ++ body

/-! ## The answer -/

/-- Reads a declaration. -/
def ofJson (json : Json) : JsonResult Declaration := do
  match ofText? (← sourceText json) with
  | some declaration => return declaration
  | none => throw (.expected "declaration")

/-- The items of the code for a declaration, or its first fault. -/
def itemsFor (kind : String) (declaration : Declaration) : JsonResult (Except Fault (List String)) :=
  match kind with
  | "message" =>
      .ok ((acceptMessage declaration).map fun message => (Code.messageCode message).items)
  | "oneof" => .ok ((acceptOneof declaration).map Code.Oneof.items)
  | "enum" => .ok ((acceptEnumeration declaration).map Code.Enumeration.items)
  | _ => .error (.expected "kind of code")

/-- Answers a declaration with its code, or with the fault for which it is refused. -/
def answerJson (json : Json) : JsonResult Json := do
  match ← itemsFor (← json.getText "derive") (← ofJson json) with
  | .ok items => return .object [("code", .texts items)]
  | .error fault =>
      return .object [("error", .text "DeriveError"), ("message", .text fault.message)]

end ProtoWire.Declaration
