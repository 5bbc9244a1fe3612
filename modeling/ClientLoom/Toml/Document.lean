import ClientLoom.Toml.Value

/-!
# Documents

A document is a list of sections.  The first has no header; every other begins with the header of a
table, or of a table in a list of tables.
-/

namespace ClientLoom.Toml

/-- What the pairs of a section belong to. -/
inductive Header
  | root
  | table (keys : List String)
  | listItem (keys : List String)

/-- A header and the pairs below it. -/
structure Section where
  header : Header
  pairs : List (List String × Reading)

/-- A document under way: finished sections in reverse, and the current one with its pairs in
reverse. -/
structure Draft where
  finished : List Section := []
  header : Header := .root
  pairs : List (List String × Reading) := []

namespace Draft

/-- Finishes the current section. -/
def close (draft : Draft) : List Section :=
  ⟨draft.header, draft.pairs.reverse⟩ :: draft.finished

/-- Begins a section. -/
def start (draft : Draft) (header : Header) : Draft :=
  { finished := draft.close, header }

/-- Adds a pair to the current section. -/
def add (draft : Draft) (pair : List String × Reading) : Draft :=
  { draft with pairs := pair :: draft.pairs }

end Draft

/-- The header of a table after its bracket. -/
def tableHeader : Reader Header := fun text => do
  let (keys, rest) ← keyPath text
  match rest with
  | ']' :: rest => some (.table keys, rest)
  | _ => none

/-- The header of a list item after its brackets. -/
def listHeader : Reader Header := fun text => do
  let (keys, rest) ← keyPath text
  match rest with
  | ']' :: ']' :: rest => some (.listItem keys, rest)
  | _ => none

/-- A header or a pair. -/
def lineContent (draft : Draft) : Reader Draft
  | '[' :: '[' :: rest => (listHeader rest).map fun (header, rest) => (draft.start header, rest)
  | '[' :: rest => (tableHeader rest).map fun (header, rest) => (draft.start header, rest)
  | text => (pair skipBlanks value text).map fun (pair, rest) => (draft.add pair, rest)

/-- The next line that is neither empty nor a comment. -/
def lineRound (draft : Draft) : Reader (Round Draft (List Section)) := fun text =>
  match skipGap false text with
  | [] => some (.done draft.close.reverse, [])
  | text => do
    let (draft, rest) ← lineContent draft text
    let rest ← lineEnd? rest
    some (.more draft, rest)

/-- The sections of a text; a byte order mark in front is no part of it. -/
def sections? (text : List Char) : Option (List Section) :=
  let text :=
    match text with
    | '\uFEFF' :: rest => rest
    | other => other
  (rounds lineRound {} text).map Prod.fst

namespace Section

/-- Applies a change at the last of some keys. -/
def atLast (keys : List String) (change : String → Entries Node → Option (Entries Node))
    (entries : Entries Node) : Option (Entries Node) :=
  match keys.reverse with
  | [] => none
  | key :: reversed =>
    Table.descend .passage (fun _ inner => change key inner) reversed.reverse .header entries

/-- Adds a section to the root table. -/
def addTo (entries : Entries Node) (part : Section) : Option (Entries Node) :=
  match part.header with
  | .root => Table.assignAll entries part.pairs
  | .table keys => atLast keys (Table.openTable part.pairs) entries
  | .listItem keys => atLast keys (Table.appendTable part.pairs) entries

end Section

/-- The value of a text; none if it is not a document. -/
def read? (text : String) : Option Reading := do
  let sections ← sections? text.toList
  let entries ← sections.foldlM Section.addTo []
  pure (.object (Node.toFields entries) true)

end ClientLoom.Toml
