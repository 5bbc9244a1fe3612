import ClientLoom.TypeNode.Basic
import ClientLoom.Text.Literal

/-!
# Text of types and declarations
-/

namespace ClientLoom

open Text (objectKey)

/-- The text has the characters of `part` somewhere, one after the other. -/
def hasInfix (part : List Char) : List Char → Bool
  | [] => part.isEmpty
  | c :: rest => part.isPrefixOf (c :: rest) || hasInfix part rest

namespace TypeNode

/-- An array of this type needs parentheses around it. -/
def needsParens : TypeNode → Bool
  | .union members => 1 < members.length
  | .raw text =>
    text.toList.contains '|' || text.toList.contains '&' || hasInfix ['=', '>'] text.toList
  | _ => false

/-- The text of a type where it is referred to. -/
def render : TypeNode → String
  | .primitive kind => kind.keyword
  | .any => "any"
  | .raw text => text
  | .object name _ => name
  | .union members => "|".intercalate (members.map Primitive.keyword)
  | .array element =>
    if element.needsParens then "(" ++ element.render ++ ")[]" else element.render ++ "[]"

/-- The line of a field. -/
def renderField (field : Field TypeNode) : String :=
  "  " ++ objectKey field.key ++ (if field.optional then "?" else "") ++ ": " ++
    field.type.render ++ ";\n"

/-- The body of an object type. -/
def renderBody (fields : List (Field TypeNode)) : String :=
  if fields.isEmpty then "\x7b\x7d"
  else "\x7b\n" ++ String.join (fields.map renderField) ++ "\x7d"

end TypeNode

/-- The text of an exported declaration. -/
def TypeDecl.render (decl : TypeDecl) : String :=
  let body :=
    match decl.type with
    | .object _ fields => TypeNode.renderBody fields
    | other => other.render
  "export type " ++ decl.name ++ " = " ++ body ++ ";"

end ClientLoom
