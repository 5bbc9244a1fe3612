/-!
# Ordered entries

A list of keyed values in the order in which the keys were first given.  Putting a value for a key
that is already there replaces the value and leaves the key in its place.
-/

namespace ClientLoom

/-- Keyed values, in order. -/
abbrev Entries (α : Type) := List (String × α)

namespace Entries

variable {α : Type}

/-- The value of the first entry with the key. -/
def get? (key : String) : Entries α → Option α
  | [] => none
  | (k, v) :: rest => if k = key then some v else get? key rest

/-- The keys, in order. -/
def keys (entries : Entries α) : List String :=
  entries.map Prod.fst

/-- The key has an entry. -/
def hasKey (key : String) (entries : Entries α) : Bool :=
  entries.any fun entry => entry.1 == key

/-- Replaces the value of a key in its place, or adds an entry at the end. -/
def put (entries : Entries α) (key : String) (value : α) : Entries α :=
  match entries with
  | [] => [(key, value)]
  | (k, v) :: rest => if k = key then (k, value) :: rest else (k, v) :: put rest key value

/-- Puts pairs one after the other: each key once, where it first stood, with its last value. -/
def collect (pairs : List (String × α)) : Entries α :=
  pairs.foldl (fun entries pair => put entries pair.1 pair.2) []

end Entries

/-- A map from text that keeps the order in which its keys were given. -/
structure OrderedMap (α : Type) where
  entries : Entries α

namespace OrderedMap

variable {α : Type}

/-- The map without entries. -/
def empty : OrderedMap α := ⟨[]⟩

/-- Adds an entry at the end, or replaces the value of a key in its place. -/
def insert (map : OrderedMap α) (key : String) (value : α) : OrderedMap α :=
  ⟨map.entries.put key value⟩

/-- The value of a key. -/
def get? (map : OrderedMap α) (key : String) : Option α :=
  map.entries.get? key

/-- The keys, in order. -/
def keys (map : OrderedMap α) : List String :=
  map.entries.keys

/-- The number of entries. -/
def size (map : OrderedMap α) : Nat :=
  map.entries.length

/-- The map has no entries. -/
def isEmpty (map : OrderedMap α) : Bool :=
  map.entries.isEmpty

/-- The map of a list of pairs, put one after the other. -/
def ofPairs (pairs : List (String × α)) : OrderedMap α :=
  ⟨Entries.collect pairs⟩

end OrderedMap

end ClientLoom
