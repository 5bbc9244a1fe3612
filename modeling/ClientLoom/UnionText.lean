import ClientLoom.Text.Casing

/-!
# Alternatives of a type text

A type text is split at the bars that stand outside brackets and quotes.  The closing angle bracket
of an arrow closes nothing.
-/

namespace ClientLoom

/-- Where in a type text a scan stands. -/
structure UnionScan where
  depth : Nat := 0
  quote : Option Char := none
  escaped : Bool := false
  previous : Option Char := none
deriving DecidableEq

namespace UnionScan

/-- A character that opens and closes quotes. -/
def isQuote (c : Char) : Bool :=
  c == '\'' || c == '"' || c == '\x60'

/-- A character that opens a bracket. -/
def isOpening (c : Char) : Bool :=
  c == '<' || c == '(' || c == '{' || c == '['

/-- A character that closes a bracket. -/
def isClosing (c : Char) : Bool :=
  c == '>' || c == ')' || c == '}' || c == ']'

/-- The scan after a character. -/
def step (scan : UnionScan) (c : Char) : UnionScan :=
  let next := { scan with previous := some c }
  match scan.quote with
  | some q =>
    if scan.escaped then { next with escaped := false }
    else if c = '\\' then { next with escaped := true }
    else if c = q then { next with quote := none }
    else next
  | none =>
    if isQuote c then { next with quote := some c }
    else if isOpening c then { next with depth := scan.depth + 1 }
    else if c = '>' ∧ scan.previous = some '=' then next
    else if isClosing c then { next with depth := scan.depth - 1 }
    else next

/-- The character is a bar between two alternatives. -/
def isBar (scan : UnionScan) (c : Char) : Bool :=
  c == '|' && scan.quote.isNone && scan.depth == 0

/-- The part up to the first bar, and the parts after it. -/
def split (scan : UnionScan) : List Char → List Char × List (List Char)
  | [] => ([], [])
  | c :: rest =>
    let (part, parts) := (scan.step c).split rest
    if scan.isBar c then ([], part :: parts) else (c :: part, parts)

end UnionScan

/-- The alternatives of a type text, without the blanks around them. -/
def alternatives (text : List Char) : List (List Char) :=
  let (part, parts) := UnionScan.split {} text
  (part :: parts).map Text.trim

/-- The alternative that makes a field optional. -/
def undefinedChars : List Char := "undefined".toList

/-- The type text of a field and whether the field is optional: alternatives `undefined` are dropped
and make it optional.  If no other alternative is left, `undefined` stays. -/
def optionalLaw (payload : String) : String × Bool :=
  let all := alternatives payload.toList
  let remaining := all.filter (· ≠ undefinedChars)
  if remaining.length = all.length then (payload, false)
  else if remaining.isEmpty then ("undefined", true)
  else (" | ".intercalate (remaining.map String.ofList), true)

end ClientLoom
