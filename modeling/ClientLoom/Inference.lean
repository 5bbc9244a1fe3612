import ClientLoom.Shape
import ClientLoom.Text.Identifier
import ClientLoom.TypeNames

/-!
# Inference of types

The shape of an example is walked from the root down, and every object on the way claims a name
made of the keys that lead to it.  Declarations come in the order of the walk, the root first.
-/

namespace ClientLoom

open Text (nameSegment)

/-- A walk that claims names.  Names claimed before an error stay claimed. -/
abbrev Walk := ExceptT Error (StateM TypeNames)

/-- Claims a name in the registry. -/
def Walk.claim (base : String) : Walk String :=
  fun names => let (name, names) := names.claim base; (.ok name, names)

/-- The type of a text; `field` is its place in the example. -/
def Leaf.type (field : String) : Leaf → Outcome TypeNode
  | .plain => .ok (.primitive .string)
  | .raw payload => .ok (.raw payload)
  | .tagged kind => do
    -- Whatever the store, the text is a string; but there has to be a store of this kind.
    let _ ← TagKind.parse kind field
    .ok (.primitive .string)

/-- The type of an array of primitives of these kinds. -/
def TypeNode.ofKinds : List Primitive → TypeNode
  | [kind] => .array (.primitive kind)
  | kinds => .array (.union kinds)

namespace Shape

mutual

/-- The type of a shape, named `name` if it is an object, and the declarations of the objects in
it.  `field` is its place in the example. -/
def declare (name field : String) : Shape → Walk (TypeNode × List TypeDecl)
  | .null => pure (.any, [])
  | .boolean => pure (.primitive .boolean, [])
  | .number => pure (.primitive .number, [])
  | .text leaf => do
    let type ← liftExcept (leaf.type field)
    pure (type, [])
  | .emptyArray => pure (.array .any, [])
  | .primitives kinds => pure (.ofKinds kinds, [])
  | .array element => do
    let (type, decls) ← declare (name ++ "Item") (field ++ "[]") element
    pure (.array type, decls)
  | .object fields => do
    let name ← Walk.claim name
    let (types, decls) ← declareFields name field fields
    pure (.object name types, ⟨name, .object name types⟩ :: decls)

/-- The types of the fields of the object `name`, and the declarations of the objects in them. -/
def declareFields (name field : String) :
    List (Field Shape) → Walk (List (Field TypeNode) × List TypeDecl)
  | [] => pure ([], [])
  | ⟨key, optional, shape⟩ :: rest => do
    let (type, decls) ← declare (name ++ nameSegment key) (field ++ "." ++ key) shape
    let (types, more) ← declareFields name field rest
    pure (⟨key, optional, type⟩ :: types, decls ++ more)

end

end Shape

/-- The types inferred from an example. -/
structure Inferred where
  name : String
  root : TypeNode
  declarations : List TypeDecl

namespace Inferred

/-- The fields of the root, if it is an object. -/
def rootFields? (inferred : Inferred) : Option (List (Field TypeNode)) :=
  inferred.root.fields?

/-- Infers the types of an example whose root is declared as `declared`.  The root claims its name
first; `field` is the place of the example in messages. -/
def walk (sample : Json) (declared field : String) : Walk Inferred := do
  let name ← Walk.claim declared
  match Shape.ofJson sample with
  | .object fields =>
    let (types, decls) ← Shape.declareFields name field fields
    pure ⟨name, .object name types, ⟨name, .object name types⟩ :: decls⟩
  | shape =>
    let (root, decls) ← shape.declare name field
    pure ⟨name, root, ⟨name, root⟩ :: decls⟩

/-- Infers the types of an example with a registry of its own. -/
def infer (sample : Json) (declared field : String) : Outcome Inferred :=
  ((walk sample declared field).run {}).1

end Inferred

end ClientLoom
