import ClientLoom.Json.Basic
import ClientLoom.Text.Quoted

/-!
# Faults of a document

Why a document does not describe a configuration: the text has no proper form, or the form is
proper and the shape is wrong.
-/

namespace ClientLoom

/-- What was found in place of what a shape asks for. -/
inductive Found
  | null
  | bool (value : Bool)
  | number (value : JsonNumber)
  | string (text : String)
  | sequence
  | map

/-- The description of what was found. -/
def Found.describe : Found → String
  | .null => "null"
  | .bool b => "boolean \x60" ++ (if b then "true" else "false") ++ "\x60"
  | .number (.integer i) => "integer \x60" ++ toString i ++ "\x60"
  | .number (.double d) => "floating point \x60" ++ Number.jsonFormat.write d ++ "\x60"
  | .string s => "string " ++ Text.quoted s
  | .sequence => "sequence"
  | .map => "map"

/-- The first fault of a document. -/
inductive DecodeError
  | malformed
  | missingField (name : String)
  | duplicateField (name : String)
  | duplicateKey (key : String)
  | invalidType (found : Found) (expected : String)
  | invalidLength (length : Nat) (expected : String)
  | unmatchedToggle
  /-- The shape is right and the value is refused. -/
  | refused (message : String)

/-- The message of a fault of shape; a fault of form has none. -/
def DecodeError.message? : DecodeError → Option String
  | .malformed => none
  | .missingField name => some ("missing field \x60" ++ name ++ "\x60")
  | .duplicateField name => some ("duplicate field \x60" ++ name ++ "\x60")
  | .duplicateKey key => some ("duplicate key '" ++ key ++ "'")
  | .invalidType found expected =>
    some ("invalid type: " ++ found.describe ++ ", expected " ++ expected)
  | .invalidLength n expected => some ("invalid length " ++ toString n ++ ", expected " ++ expected)
  | .unmatchedToggle => some "data did not match any variant of untagged enum Toggle"
  | .refused message => some message

end ClientLoom
