import ClientLoom.Json.Basic

/-!
# Readings

A reading is what a text says as far as it can be read: a value, or the part of a value in front of
the first fault.  A decoder that walks a reading from left to right meets a fault of form and a
fault of shape in the order in which they stand in the text.

A value may be readable and yet impossible to keep: a number out of range, a string with an
unpaired surrogate, a nesting that is too deep.  Such a value is harmless where it is skipped.
-/

namespace ClientLoom

/-- A value as far as it could be read. -/
inductive Reading
  | null
  | bool (value : Bool)
  | number (value : JsonNumber)
  /-- An infinity or a number that is none; kept as null. -/
  | notFinite
  | string (text : String)
  /-- Items up to the first fault between them; `closed` if there is none. -/
  | array (items : List Reading) (closed : Bool)
  /-- Fields up to the first fault between them; a key may be impossible to keep. -/
  | object (fields : List (Option String × Reading)) (closed : Bool)
  /-- A value that cannot be kept. -/
  | unkept (inner : Reading)
  /-- The place of a fault. -/
  | broken
deriving Inhabited

namespace Reading

mutual

/-- The reading of a value. -/
def ofJson : Json → Reading
  | .null => .null
  | .bool b => .bool b
  | .number n => .number n
  | .string s => .string s
  | .array items => .array (ofItems items) true
  | .object fields => .object (ofFields fields) true

/-- The readings of the items of an array. -/
def ofItems : List Json → List Reading
  | [] => []
  | v :: rest => ofJson v :: ofItems rest

/-- The readings of the fields of an object. -/
def ofFields : List (String × Json) → List (Option String × Reading)
  | [] => []
  | (k, v) :: rest => (some k, ofJson v) :: ofFields rest

end

mutual

/-- No fault of form: the value may be skipped. -/
def wellFormed : Reading → Bool
  | .null | .bool _ | .number _ | .notFinite | .string _ => true
  | .array items closed => itemsWellFormed items && closed
  | .object fields closed => fieldsWellFormed fields && closed
  | .unkept inner => wellFormed inner
  | .broken => false

/-- No item has a fault of form. -/
def itemsWellFormed : List Reading → Bool
  | [] => true
  | v :: rest => wellFormed v && itemsWellFormed rest

/-- No field has a fault of form. -/
def fieldsWellFormed : List (Option String × Reading) → Bool
  | [] => true
  | (_, v) :: rest => wellFormed v && fieldsWellFormed rest

end

mutual

/-- The whole value, keys included, can be kept. -/
def keepable : Reading → Bool
  | .null | .bool _ | .number _ | .notFinite | .string _ => true
  | .array items closed => itemsKeepable items && closed
  | .object fields closed => fieldsKeepable fields && closed
  | .unkept _ | .broken => false

/-- Every item can be kept. -/
def itemsKeepable : List Reading → Bool
  | [] => true
  | v :: rest => keepable v && itemsKeepable rest

/-- Every field and its key can be kept. -/
def fieldsKeepable : List (Option String × Reading) → Bool
  | [] => true
  | (k, v) :: rest => k.isSome && keepable v && fieldsKeepable rest

end

mutual

/-- The value, if the whole of it can be kept.  A repeated key keeps its first place and its last
value. -/
def toJson? : Reading → Option Json
  | .null => some .null
  | .bool b => some (.bool b)
  | .number n => some (.number n)
  | .notFinite => some .null
  | .string s => some (.string s)
  | .array items closed =>
    match toItems? items, closed with
    | some values, true => some (.array values)
    | _, _ => none
  | .object fields closed =>
    match toFields? fields, closed with
    | some pairs, true => some (.object (Entries.collect pairs))
    | _, _ => none
  | .unkept _ | .broken => none

/-- The values of the items of an array. -/
def toItems? : List Reading → Option (List Json)
  | [] => some []
  | v :: rest =>
    match toJson? v, toItems? rest with
    | some value, some values => some (value :: values)
    | _, _ => none

/-- The keys and values of the fields of an object. -/
def toFields? : List (Option String × Reading) → Option (List (String × Json))
  | [] => some []
  | (k, v) :: rest =>
    match k, toJson? v, toFields? rest with
    | some key, some value, some pairs => some ((key, value) :: pairs)
    | _, _, _ => none

end

end Reading

end ClientLoom
