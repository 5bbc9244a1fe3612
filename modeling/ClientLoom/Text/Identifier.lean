import ClientLoom.Text.Casing

/-!
# Identifiers

Bare identifiers of the generated code: ASCII letters, digits, `_` and `$`, not starting with a
digit.
-/

namespace ClientLoom.Text

/-- A character that may start an identifier. -/
def isIdentifierStart (c : Char) : Bool :=
  c.isAlpha || c == '_' || c == '$'

/-- A character that may stand inside an identifier. -/
def isIdentifierChar (c : Char) : Bool :=
  c.isAlphanum || c == '_' || c == '$'

/-- A non-empty list of identifier characters that starts as an identifier may. -/
def isIdentifierChars : List Char → Bool
  | [] => false
  | c :: rest => isIdentifierStart c && rest.all isIdentifierChar

/-- The text can be written as a bare identifier. -/
def isIdentifier (name : String) : Bool :=
  isIdentifierChars name.toList

/-- The part of a type name that comes from an example key: its Pascal case without the characters
that no identifier has. -/
def nameSegment (key : String) : String :=
  String.ofList ((pascalChars key.toList).filter isIdentifierChar)

end ClientLoom.Text
