import ClientLoom.Entries
import ClientLoom.Number.Format

/-!
# JSON values

Values of the data format in which examples are given.  Objects keep their keys in order.
-/

namespace ClientLoom

/-- A number: an integer of at most 64 bits, or a double. -/
inductive JsonNumber
  | integer (value : Int)
  | double (value : Number.Double)
deriving DecidableEq

/-- The text of a number. -/
def JsonNumber.render : JsonNumber → String
  | .integer i => toString i
  | .double d => Number.jsonFormat.write d

/-- A JSON value. -/
inductive Json
  | null
  | bool (value : Bool)
  | number (value : JsonNumber)
  | string (value : String)
  | array (items : List Json)
  | object (fields : List (String × Json))
deriving Inhabited

namespace Json

/-- The fields of an object. -/
def fields? : Json → Option (Entries Json)
  | .object fields => some fields
  | _ => none

/-- The value of a key of an object. -/
def get? (key : String) (value : Json) : Option Json :=
  value.fields?.bind (Entries.get? key)

/-- An integer value. -/
def ofNat (n : Nat) : Json := .number (.integer n)

/-- A text, or null in its absence. -/
def ofText? : Option String → Json
  | some text => .string text
  | none => .null

end Json

end ClientLoom
