import ClientLoom.Toml.Scalar
import ClientLoom.Toml.Table

/-!
# Keys and values

Arrays and tables written as values may span lines, hold comments and end with a comma.  They nest
only so deep, and a key has only so many keys in front of it.
-/

namespace ClientLoom.Toml

/-- A character of a key without quotes. -/
def isKeyChar (c : Char) : Bool :=
  c.isAlphanum || c == '_' || c == '-'

/-- One key. -/
def key : Reader String
  | text@('"' :: _) | text@('\'' :: _) => quotedLine text
  | text =>
    let name := text.takeWhile isKeyChar
    if name.isEmpty then none else some (String.ofList name, text.drop name.length)

/-- A key, and a dot if another one follows. -/
def keyRound (keys : List String) : Reader (Round (List String) (List String)) := fun text => do
  let (name, rest) ← key (skipBlanks text)
  match skipBlanks rest with
  | '.' :: rest => some (.more (name :: keys), rest)
  | rest => some (.done (name :: keys).reverse, rest)

/-- The greatest number of arrays and tables inside each other, and of keys in front of a key. -/
def depthLimit : Nat := 80

/-- Keys with dots between them. -/
def keyPath : Reader (List String) := fun text => do
  let (keys, rest) ← rounds keyRound [] text
  if depthLimit + 1 < keys.length then none else some (keys, rest)

/-- A series under way, the last part first, and whether a comma is due before the next part. -/
structure Series (α : Type) where
  reversed : List α
  commaDue : Bool

/-- A round of a series of parts with commas between them, up to a bracket. -/
def seriesRound {α : Type} (close : Char) (part : Reader α) (series : Series α) :
    Reader (Round (Series α) (List α)) := fun text =>
  match skipGap false text with
  | [] => none
  | c :: rest =>
    if c = close then some (.done series.reversed.reverse, rest)
    else if series.commaDue then
      if c = ',' then some (.more ⟨series.reversed, false⟩, rest) else none
    else (part (c :: rest)).map fun (value, rest) => (.more ⟨value :: series.reversed, true⟩, rest)

/-- Parts with commas between them, up to a bracket. -/
def seriesUpTo {α : Type} (close : Char) (part : Reader α) : Reader (List α) :=
  rounds (seriesRound close part) ⟨[], false⟩

/-- A key path and its value.  `skip` drops what may stand around the sign between them. -/
def pair (skip : List Char → List Char) (value : Reader Reading) :
    Reader (List String × Reading) := fun text => do
  let (keys, rest) ← keyPath text
  match skip rest with
  | '=' :: rest =>
    let (reading, rest) ← value (skip rest)
    some ((keys, reading), rest)
  | _ => none

/-- A value with at most so many arrays and tables inside each other. -/
def valueWithin : Nat → Reader Reading
  | 0, text => scalar text
  | depth + 1, text =>
    match text with
    | '[' :: rest => do
      let (items, rest) ← seriesUpTo ']' (valueWithin depth) rest
      some (.array items true, rest)
    | '{' :: rest => do
      let (pairs, rest) ← seriesUpTo '}' (pair (skipGap false) (valueWithin depth)) rest
      let entries ← Table.assignAll [] pairs
      some (.object (Node.toFields entries) true, rest)
    | _ => scalar text

/-- A value. -/
def value : Reader Reading :=
  valueWithin depthLimit

end ClientLoom.Toml
