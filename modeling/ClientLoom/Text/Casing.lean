import ClientLoom.Text.CaseMap

/-!
# Camel case and Pascal case

Words are separated by `_`, `-` and blanks, the characters with the Unicode property White_Space.
The separators vanish; the first character of every word but the first is put in upper case, and all
other casing is kept.  Camel case starts with a lower case character, Pascal case with an upper case
one.
-/

namespace ClientLoom.Text

/-- A blank has the Unicode property White_Space. -/
def isBlank (c : Char) : Bool :=
  let n := c.toNat
  (9 ≤ n && n ≤ 13) || n == 0x20 || n == 0x85 || n == 0xA0 || n == 0x1680 ||
    (0x2000 ≤ n && n ≤ 0x200A) || n == 0x2028 || n == 0x2029 || n == 0x202F ||
    n == 0x205F || n == 0x3000

/-- Drops the blanks at both ends. -/
def trim (cs : List Char) : List Char :=
  ((cs.dropWhile isBlank).reverse.dropWhile isBlank).reverse

/-- A character between two words. -/
def isSeparator (c : Char) : Bool :=
  c == '_' || c == '-' || isBlank c

/-- The rest of a camel case name; `starts` says that the next character starts a word. -/
def camelRest (starts : Bool) : List Char → List Char
  | [] => []
  | c :: rest =>
    if isSeparator c then camelRest true rest
    else if starts then upper c ++ camelRest false rest
    else c :: camelRest false rest

/-- Camel case of a list of characters; separators in front are skipped. -/
def camelChars : List Char → List Char
  | [] => []
  | c :: rest => if isSeparator c then camelChars rest else lower c ++ camelRest false rest

/-- Pascal case: camel case with its first character put in upper case. -/
def pascalChars (cs : List Char) : List Char :=
  match camelChars cs with
  | [] => []
  | c :: rest => upper c ++ rest

/-- Camel case of a name. -/
def camelCase (name : String) : String :=
  String.ofList (camelChars name.toList)

/-- Pascal case of a name. -/
def pascalCase (name : String) : String :=
  String.ofList (pascalChars name.toList)

end ClientLoom.Text
