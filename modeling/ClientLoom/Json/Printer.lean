import ClientLoom.Json.Basic

/-!
# Text of JSON values

The compact text has no blanks.  The indented text has one item or field per line, two blanks per
level; an empty array or object stays on its line.
-/

namespace ClientLoom.Json

/-- A character as it is written inside a JSON string: quotes, backslashes and controls are
escaped, everything else stands for itself. -/
def escapeChar (c : Char) : List Char :=
  if c = '"' then ['\\', '"']
  else if c = '\\' then ['\\', '\\']
  else if c = '\n' then ['\\', 'n']
  else if c = '\r' then ['\\', 'r']
  else if c = '\t' then ['\\', 't']
  else if c = '\x08' then ['\\', 'b']
  else if c = '\x0c' then ['\\', 'f']
  else if c.toNat < 0x20 then
    '\\' :: 'u' :: '0' :: '0' :: [Nat.digitChar (c.toNat / 16), Nat.digitChar (c.toNat % 16)]
  else [c]

/-- A JSON string. -/
def quote (text : String) : String :=
  String.ofList ('"' :: (text.toList.flatMap escapeChar ++ ['"']))

mutual

/-- The text without blanks. -/
def compact : Json → String
  | .null => "null"
  | .bool b => if b then "true" else "false"
  | .number n => n.render
  | .string s => quote s
  | .array items => "[" ++ ",".intercalate (compactItems items) ++ "]"
  | .object fields => "\x7b" ++ ",".intercalate (compactFields fields) ++ "\x7d"

/-- The texts of the items of an array. -/
def compactItems : List Json → List String
  | [] => []
  | v :: rest => compact v :: compactItems rest

/-- The texts of the fields of an object. -/
def compactFields : List (String × Json) → List String
  | [] => []
  | (k, v) :: rest => (quote k ++ ":" ++ compact v) :: compactFields rest

end

/-- Lines between two brackets, each line one level deeper than `depth`. -/
def block (depth : Nat) (opening closing : String) (lines : List String) : String :=
  if lines.isEmpty then opening ++ closing
  else
    let indent (n : Nat) : String := "\n" ++ String.ofList (List.replicate (2 * n) ' ')
    let inner := indent (depth + 1)
    opening ++ inner ++ ("," ++ inner).intercalate lines ++ indent depth ++ closing

mutual

/-- The text with one item or field per line, at a depth of nesting. -/
def indented (depth : Nat) : Json → String
  | .array items => block depth "[" "]" (indentedItems (depth + 1) items)
  | .object fields => block depth "\x7b" "\x7d" (indentedFields (depth + 1) fields)
  | .null => "null"
  | .bool b => if b then "true" else "false"
  | .number n => n.render
  | .string s => quote s

/-- The texts of the items of an array. -/
def indentedItems (depth : Nat) : List Json → List String
  | [] => []
  | v :: rest => indented depth v :: indentedItems depth rest

/-- The texts of the fields of an object. -/
def indentedFields (depth : Nat) : List (String × Json) → List String
  | [] => []
  | (k, v) :: rest => (quote k ++ ": " ++ indented depth v) :: indentedFields depth rest

end

end ClientLoom.Json
