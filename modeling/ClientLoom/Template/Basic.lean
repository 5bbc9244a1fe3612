import ClientLoom.Error

/-!
# Templates

A template is text with the values of a context in it.  A part may depend on a value or be repeated
for every item of one, and inside a repetition the item is the context.  Rendering is strict: a
value that is shown or iterated over must exist; a condition on a value that does not exist fails.
-/

namespace ClientLoom

/-- Where a path starts: in the context so many repetitions further out, or in the outermost one. -/
inductive PathOrigin
  | level (up : Nat)
  | root
deriving DecidableEq

/-- The way from a context to a value in it. -/
structure TemplatePath where
  origin : PathOrigin := .level 0
  names : List String
deriving DecidableEq

/-- What a part of a template is about. -/
inductive Operand
  | path (path : TemplatePath)
  /-- A mark of the repetition so many repetitions further out, such as the index of its item. -/
  | mark (up : Nat) (name : String)
  | literal (value : Json)

/-- A part of a template. -/
inductive TemplateNode
  | text (content : String)
  | value (operand : Operand)
  | when (operand : Operand) (body : List TemplateNode) (otherwise : Option (List TemplateNode))
  | each (operand : Operand) (body : List TemplateNode) (otherwise : Option (List TemplateNode))
  /-- A part that cannot be rendered. -/
  | fails
deriving Inhabited

/-- A template. -/
abbrev Template := List TemplateNode

namespace Template

/-- A repetition under way: its item and the marks of the item. -/
structure Repetition where
  item : Json
  marks : Entries Json := []

/-- The contexts that a part can see: the outermost one, and the repetitions around the part, the
innermost first. -/
structure Scope where
  root : Json
  repetitions : List Repetition := []

/-- The context so many repetitions further out, the outermost one if there are not so many. -/
def Scope.context (scope : Scope) (up : Nat) : Json :=
  ((scope.repetitions[up]?).map Repetition.item).getD scope.root

/-- A name as the index of an item: a number that fits in a word. -/
def index? (name : String) : Option Nat :=
  let digits :=
    match name.toList with
    | '+' :: rest => rest
    | other => other
  if digits.isEmpty || !digits.all Char.isDigit then none
  else
    let n := digits.foldl (fun n d => n * 10 + (d.toNat - 48)) 0
    if n < Nat.pow 2 64 then some n else none

/-- One step into a value.  An item of an array has to be asked for by its index. -/
def child? (value : Json) (name : String) : Outcome (Option Json) :=
  match value with
  | .object fields => .ok (Entries.get? name fields)
  | .array items =>
    match index? name with
    | some i => .ok items[i]?
    | none => .error .failedRendering
  | _ => .ok none

/-- The value at the end of some steps. -/
def descend? (value : Json) : List String → Outcome (Option Json)
  | [] => .ok (some value)
  | name :: rest => do
    match ← child? value name with
    | some inner => descend? inner rest
    | none => .ok none

/-- The value of an operand, if there is one. -/
def Scope.lookup? (scope : Scope) : Operand → Outcome (Option Json)
  | .path ⟨.level up, names⟩ => descend? (scope.context up) names
  | .path ⟨.root, names⟩ => descend? scope.root names
  | .mark up name => .ok ((scope.repetitions[up]?).bind fun around => around.marks.get? name)
  | .literal value => .ok (some value)

mutual

/-- A value as text: null shows as nothing, an object by a placeholder. -/
def display : Json → String
  | .null => ""
  | .bool b => if b then "true" else "false"
  | .number n => n.render
  | .string s => s
  | .array items => "[" ++ ", ".intercalate (displayItems items) ++ "]"
  | .object _ => "[object]"

/-- The items of an array as text. -/
def displayItems : List Json → List String
  | [] => []
  | v :: rest => display v :: displayItems rest

end

/-- A value that makes a condition hold. -/
def isTruthy : Json → Bool
  | .null => false
  | .bool b => b
  | .number (.integer i) => i != 0
  | .number (.double d) => d.isNormal
  | .string s => !s.isEmpty
  | .array items => !items.isEmpty
  | .object fields => !fields.isEmpty

/-- The marks of the item with number `index` of `count` items. -/
def positionMarks (index count : Nat) : Entries Json :=
  [("first", .bool (index == 0)), ("last", .bool (index + 1 == count))]

/-- The repetitions over a value; none if it can have no items. -/
def repetitions? : Json → Option (List Repetition)
  | .array items =>
    some (items.zipIdx.map fun (item, i) =>
      ⟨item, positionMarks i items.length ++ [("index", .ofNat i)]⟩)
  | .object fields =>
    some (fields.zipIdx.map fun ((key, item), i) =>
      ⟨item, positionMarks i fields.length ++ [("key", .string key)]⟩)
  | _ => none

mutual

/-- Renders a part. -/
def renderNode (scope : Scope) : TemplateNode → Outcome String
  | .text content => .ok content
  | .value operand => do
    match ← scope.lookup? operand with
    | some value => .ok (display value)
    | none => .error .failedRendering
  | .when operand body otherwise => do
    let value ← scope.lookup? operand
    if (value.map isTruthy).getD false then render scope body
    else renderOtherwise scope (.ok "") otherwise
  | .each operand body otherwise => do
    match (← scope.lookup? operand).bind repetitions? with
    | some [] => renderOtherwise scope (.ok "") otherwise
    | some repetitions => do
      let parts ← repetitions.mapM fun inner =>
        render { scope with repetitions := inner :: scope.repetitions } body
      pure (String.join parts)
    | none => renderOtherwise scope (.error .failedRendering) otherwise
  | .fails => .error .failedRendering

/-- Renders a template. -/
def render (scope : Scope) : List TemplateNode → Outcome String
  | [] => .ok ""
  | node :: rest => do
    let first ← renderNode scope node
    let others ← render scope rest
    pure (first ++ others)

/-- Renders what stands for a part that does not hold; `absent` is the outcome without it. -/
def renderOtherwise (scope : Scope) (absent : Outcome String) :
    Option (List TemplateNode) → Outcome String
  | none => absent
  | some body => render scope body

end

theorem render_cons {scope : Scope} {node : TemplateNode} {nodes : List TemplateNode}
    {first others : String} (hfirst : renderNode scope node = .ok first)
    (hothers : render scope nodes = .ok others) :
    render scope (node :: nodes) = .ok (first ++ others) := by
  rw [render, hfirst, hothers]
  rfl

theorem render_text {scope : Scope} {content others : String} {nodes : List TemplateNode}
    (h : render scope nodes = .ok others) :
    render scope (.text content :: nodes) = .ok (content ++ others) :=
  render_cons (by rw [renderNode]) h

end Template

end ClientLoom
