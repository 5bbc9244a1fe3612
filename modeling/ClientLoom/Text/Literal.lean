import ClientLoom.Text.Identifier

/-!
# Literals of the generated code

Single-quoted string literals, the fixed text of template literals, object keys and property reads.
Keys and reads use the bare name where it is an identifier and a string literal elsewhere.
-/

namespace ClientLoom.Text

/-- A character as it is written inside a single-quoted literal. -/
def escapeQuoted (c : Char) : List Char :=
  if c = '\\' then ['\\', '\\']
  else if c = '\'' then ['\\', '\'']
  else if c = '\n' then ['\\', 'n']
  else if c = '\r' then ['\\', 'r']
  else [c]

/-- A single-quoted literal, as characters. -/
def literalChars (value : List Char) : List Char :=
  '\'' :: (value.flatMap escapeQuoted ++ ['\''])

/-- The single-quoted literal that denotes the text. -/
def stringLiteral (value : String) : String :=
  String.ofList (literalChars value.toList)

/-- Fixed text of a template literal, as characters: a backslash and a backtick are escaped, and a
dollar sign where it would open a substitution. -/
def templateChars : List Char → List Char
  | [] => []
  | c :: rest =>
    if c = '\\' then '\\' :: '\\' :: templateChars rest
    else if c = '\x60' then '\\' :: '\x60' :: templateChars rest
    else if c = '$' ∧ rest.head? = some '{' then '\\' :: '$' :: templateChars rest
    else c :: templateChars rest

/-- Fixed text of a template literal. -/
def templateText (text : String) : String :=
  String.ofList (templateChars text.toList)

/-- A key of an object type or object literal. -/
def objectKey (key : String) : String :=
  if isIdentifier key then key else stringLiteral key

/-- The read of a property of `target`. -/
def propertyRead (target key : String) : String :=
  if isIdentifier key then target ++ "." ++ key else target ++ "[" ++ stringLiteral key ++ "]"

end ClientLoom.Text
