import ClientLoom.Decode.Error
import ClientLoom.Reading

/-!
# Decoding of records

A record may be written as an object or as an array of its fields in order.  Unknown keys are
skipped, a known key may occur once, and a field that is absent takes its default if it has one.
The decoders walk a reading from left to right, so that the first fault in the text is reported.
-/

namespace ClientLoom.Decode

/-- The outcome of a decoder. -/
abbrev Decoded := Except DecodeError

/-- What becomes of items behind the last field of a record written as an array. -/
inductive Surplus
  /-- The text is malformed. -/
  | malformed
  /-- The array has the wrong length. -/
  | counted
  /-- They are ignored. -/
  | allowed

/-- The fault of a reading that is not what a shape asks for. -/
def mismatch (reading : Reading) (expected : String) : DecodeError :=
  match reading with
  | .null => .invalidType .null expected
  | .bool b => .invalidType (.bool b) expected
  | .number n => .invalidType (.number n) expected
  | .string s => .invalidType (.string s) expected
  | .array _ _ => .invalidType .sequence expected
  | .object _ _ => .invalidType .map expected
  | .notFinite | .unkept _ | .broken => .malformed

/-- A text; `expected` says what it is asked for as. -/
def textAs (expected : String) : Reading → Decoded String
  | .string s => .ok s
  | reading => .error (mismatch reading expected)

/-- A text. -/
def text : Reading → Decoded String :=
  textAs "a string"

/-- A truth value. -/
def bool : Reading → Decoded Bool
  | .bool b => .ok b
  | reading => .error (mismatch reading "a boolean")

/-- A value of any shape. -/
def json (reading : Reading) : Decoded Json :=
  match reading.toJson? with
  | some value => .ok value
  | none => .error .malformed

/-- Null, or what another decoder reads. -/
def option {α : Type} (decode : Reading → Decoded α) : Reading → Decoded (Option α)
  | .null => .ok none
  | reading => some <$> decode reading

/-- Items one after the other. -/
def items {α : Type} (decode : Reading → Decoded α) : List Reading → Decoded (List α)
  | [] => .ok []
  | item :: rest => do
    let value ← decode item
    let values ← items decode rest
    pure (value :: values)

/-- The end of an array or object. -/
def ending (closed : Bool) : Decoded Unit :=
  if closed then .ok () else .error .malformed

/-- A list. -/
def list {α : Type} (decode : Reading → Decoded α) : Reading → Decoded (List α)
  | .array readings closed => do
    let values ← items decode readings
    ending closed
    pure values
  | reading => .error (mismatch reading "a sequence")

/-- Entries one after the other, added to those read before; no key may repeat. -/
def entries {α : Type} (decode : Reading → Decoded α) (read : Entries α) :
    List (Option String × Reading) → Decoded (Entries α)
  | [] => .ok read
  | (none, _) :: _ => .error .malformed
  | (some key, reading) :: rest => do
    let value ← decode reading
    if read.hasKey key then .error (.duplicateKey key)
    else entries decode (read ++ [(key, value)]) rest

/-- A map whose keys do not repeat. -/
def map {α : Type} (decode : Reading → Decoded α) : Reading → Decoded (OrderedMap α)
  | .object fields closed => do
    let read ← entries decode [] fields
    ending closed
    pure ⟨read⟩
  | reading => .error (mismatch reading "a map with string keys")

/-- A field of a record: its names, whether it must be present, and how its value is stored. -/
structure FieldRule (σ : Type) where
  name : String
  aliases : List String := []
  required : Bool := false
  store : Reading → σ → Decoded σ

/-- The rule is that of a key. -/
def FieldRule.answers {σ : Type} (rule : FieldRule σ) (key : String) : Bool :=
  key == rule.name || rule.aliases.contains key

/-- Reads the fields of an object one after the other; `seen` are the names of those read before. -/
def fields {σ : Type} (rules : List (FieldRule σ)) (seen : List String) (record : σ) :
    List (Option String × Reading) → Decoded (List String × σ)
  | [] => .ok (seen, record)
  | (none, _) :: _ => .error .malformed
  | (some key, reading) :: rest =>
    match rules.find? (·.answers key) with
    | none =>
      if reading.wellFormed then fields rules seen record rest else .error .malformed
    | some rule =>
      if seen.contains rule.name then .error (.duplicateField rule.name)
      else
        match rule.store reading record with
        | .error e => .error e
        | .ok record => fields rules (rule.name :: seen) record rest

/-- The first required field that was not seen is a fault. -/
def requireAll {σ : Type} (seen : List String) : List (FieldRule σ) → Decoded Unit
  | [] => .ok ()
  | rule :: rest =>
    if rule.required && !seen.contains rule.name then .error (.missingField rule.name)
    else requireAll seen rest

/-- What is left of an array behind the last field of a record. -/
def surplus (policy : Surplus) (length : Nat) (closed : Bool) (rest : List Reading) :
    Decoded Unit :=
  if rest.isEmpty && closed then .ok ()
  else
    match policy with
    | .malformed => .error .malformed
    | .counted => .error (.invalidLength length "fewer elements in array")
    | .allowed => .ok ()

/-- Reads the fields of a record written as an array, from the field with number `index` on. -/
def positions {σ : Type} (expected : String) (closed : Bool) (index : Nat) (record : σ) :
    List (FieldRule σ) → List Reading → Decoded (σ × List Reading)
  | [], rest => .ok (record, rest)
  | rule :: rules, [] =>
    if !closed then .error .malformed
    else if rule.required then .error (.invalidLength index expected)
    else positions expected closed (index + 1) record rules []
  | rule :: rules, reading :: rest =>
    match rule.store reading record with
    | .error e => .error e
    | .ok record => positions expected closed (index + 1) record rules rest

/-- A record, named `name` in messages.  Fields that are absent are those of `start`. -/
def record {σ : Type} (name : String) (policy : Surplus) (rules : List (FieldRule σ)) (start : σ) :
    Reading → Decoded σ
  | .object readings closed => do
    let (seen, result) ← fields rules [] start readings
    ending closed
    requireAll seen rules
    pure result
  | .array readings closed => do
    let expected := "struct " ++ name ++ " with " ++ toString rules.length ++ " elements"
    let (result, rest) ← positions expected closed 0 start rules readings
    surplus policy readings.length closed rest
    pure result
  | reading => .error (mismatch reading ("struct " ++ name))

end ClientLoom.Decode
