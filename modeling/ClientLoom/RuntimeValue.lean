import ClientLoom.Tag
import ClientLoom.Text.Literal

/-!
# Values computed at request time

A header or a base address is a text that may carry a tag.  Without a tag it is a string literal; a
raw tag that is the whole text is the expression in it; every other tag becomes the substitution of
a template literal.
-/

namespace ClientLoom

open Text (stringLiteral templateChars)

/-- A value of the generated code. -/
inductive RuntimeValue
  | literal (text : String)
  | expression (code : String)
  | template (before : List Char) (code : String) (after : List Char)
deriving DecidableEq

namespace RuntimeValue

/-- The text of a value. -/
def render : RuntimeValue → String
  | .literal text => stringLiteral text
  | .expression code => code
  | .template before code after =>
    "\x60" ++ String.ofList (templateChars before) ++ "$\x7b" ++ code ++ "\x7d" ++
      String.ofList (templateChars after) ++ "\x60"

/-- The expression that stands for the payload of a tag. -/
def lookupCode (kind : TagKind) (payload : String) : String :=
  match kind.lookup? with
  | none => payload
  | some helper => "HttpClient." ++ helper ++ "(" ++ stringLiteral payload ++ ")"

/-- The value of a text; `field` is its place in messages. -/
def ofText (text field : String) : Outcome RuntimeValue :=
  match TagSplit.find? text.toList with
  | none => .ok (.literal text)
  | some split => do
    let kind ← TagKind.parse (String.ofList split.kind) field
    let code := lookupCode kind (String.ofList split.payload)
    if kind = .raw ∧ split.before.isEmpty ∧ split.after.isEmpty then .ok (.expression code)
    else .ok (.template split.before code split.after)

end RuntimeValue

end ClientLoom
