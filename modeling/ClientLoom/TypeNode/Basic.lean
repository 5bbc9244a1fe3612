/-!
# Types of the generated code

The types that examples give rise to.  An object type has a name and is referred to by it; its
fields appear only where it is declared.
-/

namespace ClientLoom

/-- A primitive type. -/
inductive Primitive
  | string
  | number
  | boolean
deriving DecidableEq

/-- The keyword of a primitive type. -/
def Primitive.keyword : Primitive → String
  | .string => "string"
  | .number => "number"
  | .boolean => "boolean"

/-- A field of an object type. -/
structure Field (τ : Type) where
  key : String
  optional : Bool
  type : τ

/-- A type. -/
inductive TypeNode
  | primitive (kind : Primitive)
  | any
  /-- Type text taken over as it is. -/
  | raw (text : String)
  | object (name : String) (fields : List (Field TypeNode))
  | array (element : TypeNode)
  /-- Several primitives, in the order of their first occurrence. -/
  | union (members : List Primitive)
deriving Inhabited

/-- The keys of the fields that are not optional. -/
def requiredKeys {τ : Type} (fields : List (Field τ)) : List String :=
  (fields.filter fun field => !field.optional).map Field.key

/-- The first field with a key. -/
def Field.find? {τ : Type} (fields : List (Field τ)) (key : String) : Option (Field τ) :=
  fields.find? fun field => field.key == key

namespace TypeNode

/-- The fields of an object type. -/
def fields? : TypeNode → Option (List (Field TypeNode))
  | .object _ fields => some fields
  | _ => none

end TypeNode

/-- A declared type. -/
structure TypeDecl where
  name : String
  type : TypeNode

end ClientLoom
