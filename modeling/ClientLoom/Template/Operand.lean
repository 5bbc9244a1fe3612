import ClientLoom.Json.Text
import ClientLoom.Template.Basic

/-!
# Reading of operands

An operand is a literal or a path.  A path has names with dots or slashes between them; a name in
square brackets may hold any characters.  In front of the names, `this` and `./` stand for the
context itself, `../` for the one further out, `@root` for the outermost one and `@` for a mark of
the repetition.  A name `this` further on changes nothing.
-/

namespace ClientLoom.Template

/-- A character of a name. -/
def isNameChar (c : Char) : Bool :=
  c.isAlphanum || c == '_' || c == '-' || c == '$' || c == ':' || c == '?' || 0x80 ≤ c.toNat

/-- A character between two names. -/
def isPathSeparator (c : Char) : Bool :=
  c == '.' || c == '/'

/-- What follows a word, if the text starts with it. -/
def afterWord? : List Char → List Char → Option (List Char)
  | [], text => some text
  | w :: word, c :: text => if w = c then afterWord? word text else none
  | _ :: _, [] => none

/-- What follows a word and a separator, if the text starts with them. -/
def afterStep? (word text : List Char) : Option (List Char) :=
  match afterWord? word text with
  | some (c :: rest) => if isPathSeparator c then some rest else none
  | _ => none

/-- The text goes on with a name. -/
def continuesName (text : List Char) : Bool :=
  text.head?.any isNameChar

/-- One name of a path, and what follows. -/
def pathName? : List Char → Option (List Char × List Char)
  | '[' :: text =>
    match text.dropWhile (· ≠ ']') with
    | _ :: rest => some (text.takeWhile (· ≠ ']'), rest)
    | [] => none
  | text =>
    let name := text.takeWhile isNameChar
    if name.isEmpty then none else some (name, text.drop name.length)

/-- The names that follow others, each behind a separator, at most so many. -/
def moreNames : Nat → List Char → List (List Char) × List Char
  | 0, text => ([], text)
  | count + 1, text =>
    match text with
    | [] => ([], [])
    | c :: rest =>
      if isPathSeparator c then
        match pathName? rest with
        | some (name, rest) =>
          let (names, rest) := moreNames count rest
          (name :: names, rest)
        | none => ([], text)
      else ([], text)

/-- Counts steps outward, at most so many. -/
def outwardSteps : Nat → List Char → Nat × List Char
  | 0, text => (0, text)
  | count + 1, text =>
    match afterStep? ['.', '.'] text with
    | some rest =>
      let (up, rest) := outwardSteps count rest
      (up + 1, rest)
    | none => (0, text)

/-- What follows the sign of the context itself, if the text starts with it. -/
def afterCurrent (text : List Char) : List Char :=
  (afterStep? "this".toList text).getD ((afterWord? ['.', '/'] text).getD text)

/-- The operand of a path: where it starts, whether it asks for a mark, and its names. -/
def ofPath (fromRoot marked : Bool) (up : Nat) (names : List (List Char)) : Operand :=
  let kept := (names.filter (· ≠ "this".toList)).map String.ofList
  if fromRoot then .path ⟨.root, kept⟩
  else if marked then
    match kept with
    | name :: _ => .mark up name
    | [] => .path ⟨.level 0, []⟩
  else .path ⟨.level up, kept⟩

/-- A path, and what follows. -/
def path? (text : List Char) : Option (Operand × List Char) := do
  let text := afterCurrent text
  let inside := afterStep? "@root".toList text
  let text := inside.getD text
  let sign := afterWord? ['@'] text
  let text := sign.getD text
  let (up, text) := outwardSteps text.length text
  let (first, text) ← pathName? text
  let (names, text) := moreNames text.length text
  pure (ofPath inside.isSome sign.isSome up (first :: names), text)

/-- The digits at the front of a text, and what follows. -/
def takeDigits (text : List Char) : List Char × List Char :=
  (text.takeWhile Char.isDigit, text.dropWhile Char.isDigit)

/-- An exponent with its mark, and what follows; nothing if the text does not start with one. -/
def takeExponent (text : List Char) : List Char × List Char :=
  match text with
  | 'E' :: rest =>
    let (sign, rest) :=
      match rest with
      | '-' :: rest => (['-'], rest)
      | rest => ([], rest)
    let (digits, rest) := takeDigits rest
    if digits.isEmpty then ([], text) else ('E' :: (sign ++ digits), rest)
  | _ => ([], text)

/-- The text of a number, and what follows; none if no number stands there on its own. -/
def numberText? (text : List Char) : Option (List Char × List Char) :=
  let (sign, rest) :=
    match text with
    | '-' :: rest => (['-'], rest)
    | rest => ([], rest)
  let (whole, rest) := takeDigits rest
  let (point, rest) :=
    match rest with
    | '.' :: rest => (['.'], rest)
    | rest => ([], rest)
  let (fraction, rest) := takeDigits rest
  let (exponent, rest) := takeExponent rest
  if whole.isEmpty || continuesName rest then none
  else some (sign ++ whole ++ point ++ fraction ++ exponent, rest)

/-- What follows a word that stands there on its own. -/
def afterKeyword? (word : String) (text : List Char) : Option (List Char) :=
  (afterWord? word.toList text).filter fun rest => !continuesName rest

/-- A keyword with a value, and what follows. -/
def constant? (text : List Char) : Option (Operand × List Char) :=
  [("null", Json.null), ("true", .bool true), ("false", .bool false)].findSome? fun (word, value) =>
    (afterKeyword? word text).map fun rest => (.literal value, rest)

/-- An operand, and what follows.  A number must be one of JSON; `as` and `else` are no operands. -/
def operand? (text : List Char) : Option (Operand × List Char) :=
  if (afterKeyword? "as" text).isSome || (afterKeyword? "else" text).isSome then none
  else
    match numberText? text with
    | some (number, rest) =>
      (Json.parse? (String.ofList number)).map fun value => (.literal value, rest)
    | none => (constant? text).or (path? text)

end ClientLoom.Template
