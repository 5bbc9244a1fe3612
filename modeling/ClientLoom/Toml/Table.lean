import ClientLoom.Entries
import ClientLoom.Reading

/-!
# Tables under construction

A table is made by a header of its own, by a header of a table below it, or by a dotted key.  How it
was made says who may add to it: a dotted key only to tables made by dotted keys, and a header only
to a table that no header named before.  Values, and tables written as values, are final.
-/

namespace ClientLoom.Toml

/-- What made a table. -/
inductive Origin
  /-- Its own header. -/
  | header
  /-- The header of a table below it. -/
  | passage
  /-- A dotted key. -/
  | dotted
deriving DecidableEq

/-- An entry of a table under construction. -/
inductive Node
  | value (reading : Reading)
  | table (origin : Origin) (entries : List (String × Node))
  /-- A list of tables, the last one first. -/
  | tables (reversed : List (List (String × Node)))

namespace Node

mutual

/-- The finished value. -/
def toReading : Node → Reading
  | .value reading => reading
  | .table _ entries => .object (toFields entries) true
  | .tables reversed => .array (toItems reversed).reverse true

/-- The finished entries of a table. -/
def toFields : List (String × Node) → List (Option String × Reading)
  | [] => []
  | (key, node) :: rest => (some key, toReading node) :: toFields rest

/-- The finished tables of a list. -/
def toItems : List (List (String × Node)) → List Reading
  | [] => []
  | entries :: rest => .object (toFields entries) true :: toItems rest

end

end Node

namespace Table

/-- Changes the table at the end of a path.  Missing tables on the way are made by `origin`; a list
of tables leads to its last one. -/
def descend (origin : Origin) (change : Origin → Entries Node → Option (Entries Node)) :
    List String → Origin → Entries Node → Option (Entries Node)
  | [], own, entries => change own entries
  | key :: path, _, entries =>
    match entries.get? key with
    | none => do
      let inner ← descend origin change path origin []
      some (entries.put key (.table origin inner))
    | some (.table own inner) =>
      if origin = .dotted ∧ own = .header then none
      else do
        let inner ← descend origin change path own inner
        some (entries.put key (.table own inner))
    | some (.tables (last :: earlier)) => do
      let inner ← descend origin change path .header last
      some (entries.put key (.tables (inner :: earlier)))
    | some (.tables []) | some (.value _) => none

/-- Adds a value under a key path: in front of the last key, the path leads to a table of dotted
keys. -/
def assign (entries : Entries Node) (keys : List String) (reading : Reading) :
    Option (Entries Node) :=
  match keys.reverse with
  | [] => none
  | key :: reversed =>
    let isDirect := reversed.isEmpty
    let add (own : Origin) (inner : Entries Node) : Option (Entries Node) :=
      if (own == .dotted) == isDirect || inner.hasKey key then none
      else some (inner ++ [(key, .value reading)])
    descend .dotted add reversed.reverse .header entries

/-- Adds values one after the other. -/
def assignAll (entries : Entries Node) : List (List String × Reading) → Option (Entries Node)
  | [] => some entries
  | (keys, reading) :: rest => do
    let entries ← assign entries keys reading
    assignAll entries rest

/-- Opens a table by its header and fills it.  A table that was only a passage moves to the end. -/
def openTable (pairs : List (List String × Reading)) (key : String) (entries : Entries Node) :
    Option (Entries Node) :=
  match entries.get? key with
  | none => do
    let inner ← assignAll [] pairs
    some (entries ++ [(key, .table .header inner)])
  | some (.table .passage inner) => do
    let inner ← assignAll inner pairs
    some (entries.filter (·.1 != key) ++ [(key, .table .header inner)])
  | some _ => none

/-- Opens a new table at the end of a list of tables and fills it. -/
def appendTable (pairs : List (List String × Reading)) (key : String) (entries : Entries Node) :
    Option (Entries Node) := do
  let inner ← assignAll [] pairs
  match entries.get? key with
  | none => some (entries ++ [(key, .tables [inner])])
  | some (.tables reversed) => some (entries.put key (.tables (inner :: reversed)))
  | some _ => none

end Table

end ClientLoom.Toml
