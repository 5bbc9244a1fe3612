import ClientLoom.Json.Basic
import ClientLoom.Tag
import ClientLoom.TypeNode.Basic
import ClientLoom.UnionText

/-!
# Shapes of examples

The shape of an example is its type without names.  An array of objects has the shape of one object
with every key that occurs, each with the shape of its first value.
-/

namespace ClientLoom

/-- What a text in an example says about its type. -/
inductive Leaf
  | plain
  /-- The type is the payload. -/
  | raw (payload : String)
  /-- A tag of another kind; where the place of the text is known, the kind is looked up. -/
  | tagged (kind : String)
deriving DecidableEq

/-- The leaf of a text. -/
def Leaf.ofText (text : String) : Leaf :=
  match Tag.find? text with
  | none => .plain
  | some tag => if tag.kind = TagKind.raw.name then .raw tag.payload else .tagged tag.kind

/-- The type of an example, without names. -/
inductive Shape
  | null
  | boolean
  | number
  | text (leaf : Leaf)
  | emptyArray
  /-- An array of primitives of these kinds, in the order of their first occurrence. -/
  | primitives (kinds : List Primitive)
  | array (element : Shape)
  | object (fields : List (Field Shape))
deriving Inhabited

namespace Shape

/-- The primitive type of an untagged value. -/
def primitive? : Shape → Option Primitive
  | .boolean => some .boolean
  | .number => some .number
  | .text .plain => some .string
  | _ => none

/-- The fields of an object. -/
def fields? : Shape → Option (List (Field Shape))
  | .object fields => some fields
  | _ => none

/-- The fields without those whose key stands further in front. -/
def firstFields (seen : List String) : List (Field Shape) → List (Field Shape)
  | [] => []
  | field :: rest =>
    if seen.contains field.key then firstFields seen rest
    else field :: firstFields (field.key :: seen) rest

/-- Some object lacks the key. -/
def lacking (objects : List (List (Field Shape))) (key : String) : Bool :=
  objects.any fun fields => !fields.any fun field => field.key == key

/-- One object for many: every key once, where it first occurs, with its first field; a key that
some object lacks is optional. -/
def merge (objects : List (List (Field Shape))) : List (Field Shape) :=
  (firstFields [] objects.flatten).map fun field =>
    { field with optional := field.optional || lacking objects field.key }

/-- The shape of an array with items of these shapes. -/
def ofItems : List Shape → Shape
  | [] => .emptyArray
  | first :: rest =>
    match (first :: rest).mapM primitive? with
    | some kinds => .primitives kinds.eraseDups
    | none =>
      match (first :: rest).mapM fields? with
      | some objects => .array (.object (merge objects))
      | none => .array first

/-- The field of a key with a value of this shape; a raw text obeys the optional law. -/
def field (key : String) : Shape → Field Shape
  | .text (.raw payload) =>
    let law := optionalLaw payload
    ⟨key, law.2, .text (.raw law.1)⟩
  | shape => ⟨key, false, shape⟩

mutual

/-- The shape of an example. -/
def ofJson : Json → Shape
  | .null => .null
  | .bool _ => .boolean
  | .number _ => .number
  | .string s => .text (Leaf.ofText s)
  | .array items => ofItems (ofValues items)
  | .object fields => .object (ofFields fields)

/-- The shapes of the items of an array. -/
def ofValues : List Json → List Shape
  | [] => []
  | v :: rest => ofJson v :: ofValues rest

/-- The fields of an object. -/
def ofFields : List (String × Json) → List (Field Shape)
  | [] => []
  | (k, v) :: rest => field k (ofJson v) :: ofFields rest

end

end Shape

end ClientLoom
