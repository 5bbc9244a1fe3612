import ClientLoom.Json.Token
import ClientLoom.Reading

/-!
# Reading JSON text

The tokens of a text are assembled by a machine with a stack of open arrays and objects.  At the
first token that does not fit, everything that is still open is closed as far as it was read.
-/

namespace ClientLoom.Json

/-- An array or object under way, its contents in reverse. -/
inductive Frame
  | array (items : List Reading)
  | object (fields : List (Option String × Reading)) (key : Option String)

/-- What may come next. -/
inductive Expected
  | value
  | firstItem
  | separator
  | firstKey
  | key
  | colon
  | nothing

/-- An assembly under way. -/
structure Assembly where
  stack : List Frame := []
  expected : Expected := .value
  root : Option Reading := none
  stopped : Bool := false

/-- A text as a reading and whether nothing but blanks follows it. -/
structure Document where
  root : Reading
  ended : Bool

/-- The greatest depth at which an array or object can be kept. -/
def depthLimit : Nat := 127

/-- A container at a depth. -/
def atDepth (depth : Nat) (container : Reading) : Reading :=
  if depthLimit < depth then .unkept container else container

namespace Assembly

/-- Adds a complete value to the innermost open container. -/
def add (a : Assembly) (value : Reading) : Assembly :=
  match a.stack with
  | [] => { a with root := some value, expected := .nothing }
  | .array items :: rest =>
    { a with stack := .array (value :: items) :: rest, expected := .separator }
  | .object fields key :: rest =>
    { a with stack := .object ((key, value) :: fields) none :: rest, expected := .separator }

/-- Opens a container. -/
def enter (a : Assembly) (frame : Frame) (expected : Expected) : Assembly :=
  { a with stack := frame :: a.stack, expected := expected }

/-- Closes the innermost container. -/
def leave (a : Assembly) : Assembly :=
  match a.stack with
  | [] => { a with stopped := true }
  | .array items :: rest =>
    { a with stack := rest }.add (atDepth a.stack.length (.array items.reverse true))
  | .object fields _ :: rest =>
    { a with stack := rest }.add (atDepth a.stack.length (.object fields.reverse true))

/-- A token in place of a value. -/
def value (a : Assembly) : Token → Assembly
  | .arrayOpen => a.enter (.array []) .firstItem
  | .objectOpen => a.enter (.object [] none) .firstKey
  | .null => a.add .null
  | .bool b => a.add (.bool b)
  | .number lit =>
    match lit.value? with
    | some n => a.add (.number n)
    | none => a.add (.unkept .null)
  | .string (some text) => a.add (.string text)
  | .string none => a.add (.unkept .null)
  | .arrayClose | .objectClose | .comma | .colon | .broken => { a with stopped := true }

/-- A token in place of a key. -/
def key (a : Assembly) : Token → Assembly
  | .string text =>
    match a.stack with
    | .object fields _ :: rest =>
      { a with stack := .object fields text :: rest, expected := .colon }
    | _ => { a with stopped := true }
  | _ => { a with stopped := true }

/-- A token between two items or fields. -/
def separator (a : Assembly) : Token → Assembly
  | .comma =>
    match a.stack with
    | .array _ :: _ => { a with expected := .value }
    | .object _ _ :: _ => { a with expected := .key }
    | [] => { a with stopped := true }
  | .arrayClose =>
    match a.stack with
    | .array _ :: _ => a.leave
    | _ => { a with stopped := true }
  | .objectClose =>
    match a.stack with
    | .object _ _ :: _ => a.leave
    | _ => { a with stopped := true }
  | _ => { a with stopped := true }

/-- One token. -/
def step (a : Assembly) (token : Token) : Assembly :=
  if a.stopped then a
  else
    match a.expected, token with
    | .firstItem, .arrayClose => a.leave
    | .firstKey, .objectClose => a.leave
    | .value, t | .firstItem, t => a.value t
    | .firstKey, t | .key, t => a.key t
    | .separator, t => a.separator t
    | .colon, .colon => { a with expected := .value }
    | .colon, _ | .nothing, _ => { a with stopped := true }

/-- Whether a field was begun and its value is missing. -/
def owesValue (a : Assembly) : Bool :=
  match a.expected, a.stack with
  | .colon, _ => true
  | .value, .object _ _ :: _ => true
  | _, _ => false

/-- Closes every open container as far as it was read, around the value `inner`. -/
def unwind (stack : List Frame) (inner : Option Reading) : Option Reading :=
  match stack with
  | [] => inner
  | .array items :: rest =>
    unwind rest (some (atDepth stack.length (.array (inner.toList ++ items).reverse false)))
  | .object fields key :: rest =>
    let last := inner.toList.map fun value => (key, value)
    unwind rest (some (atDepth stack.length (.object (last ++ fields).reverse false)))

/-- The document at the end of the text. -/
def finish (a : Assembly) : Document :=
  match a.root with
  | some root => ⟨root, !a.stopped⟩
  | none =>
    let inner := if a.owesValue then some .broken else none
    ⟨(unwind a.stack inner).getD .broken, false⟩

end Assembly

/-- Reads a text. -/
def readText (text : String) : Document :=
  ((tokens text.toList).foldl Assembly.step {}).finish

/-- The value of a text; none if the text is not JSON or the value cannot be kept. -/
def parse? (text : String) : Option Json :=
  let document := readText text
  if document.ended then document.root.toJson? else none

end ClientLoom.Json
