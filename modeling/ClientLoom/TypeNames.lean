/-!
# Names of declarations

A registry of the names that are taken in one module.  A name is claimed as it is, or with the
least number from two up that makes it free.
-/

namespace ClientLoom

/-- The names that are taken. -/
structure TypeNames where
  used : List String := []
deriving DecidableEq

namespace TypeNames

/-- The name is taken. -/
def contains (names : TypeNames) (name : String) : Bool :=
  names.used.contains name

/-- The number of names that are taken. -/
def size (names : TypeNames) : Nat :=
  names.used.length

/-- No name is taken. -/
def isEmpty (names : TypeNames) : Bool :=
  names.used.isEmpty

/-- A name with a number behind it. -/
def numbered (base : String) (n : Nat) : String :=
  base ++ toString n

/-- The least number, from two up, that makes the name free.  Of one number more than there are
names, one is free. -/
def freeNumber? (names : TypeNames) (base : String) : Option Nat :=
  (List.range' 2 (names.size + 1)).find? fun n => !names.contains (numbered base n)

/-- The name that a claim of `base` gets. -/
def choose (names : TypeNames) (base : String) : String :=
  if names.contains base then
    match names.freeNumber? base with
    | some n => numbered base n
    | none => base
  else base

/-- Claims a name: the name, and the registry with it. -/
def claim (names : TypeNames) (base : String) : String × TypeNames :=
  let name := names.choose base
  (name, ⟨name :: names.used⟩)

end TypeNames

end ClientLoom
