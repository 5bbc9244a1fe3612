import ClientLoom.Json.Token
import ClientLoom.Toml.Reader

/-!
# Quoted text

Double quotes allow escapes and single quotes do not.  Three quotes allow line ends: one directly
after the opening quotes is dropped, and up to two quotes may stand before the closing ones.
-/

namespace ClientLoom.Toml

/-- A number of so many hexadecimal digits, after `value`. -/
def hexNumber : Nat → Nat → Reader Nat
  | 0, value, text => some (value, text)
  | _ + 1, _, [] => none
  | count + 1, value, c :: rest =>
    match Json.hexDigit? c with
    | some d => hexNumber count (value * 16 + d) rest
    | none => none

/-- A character given by its number in so many hexadecimal digits. -/
def numbered (count : Nat) : Reader Char := fun text =>
  match hexNumber count 0 text with
  | some (n, rest) => if n.isValidChar then some (Char.ofNat n, rest) else none
  | none => none

/-- An escape after its backslash. -/
def escape : Reader Char
  | [] => none
  | c :: rest =>
    if c = 'b' then some ('\x08', rest)
    else if c = 't' then some ('\t', rest)
    else if c = 'n' then some ('\n', rest)
    else if c = 'f' then some ('\x0c', rest)
    else if c = 'r' then some ('\r', rest)
    else if c = 'e' then some ('\x1b', rest)
    else if c = '"' then some ('"', rest)
    else if c = '\\' then some ('\\', rest)
    else if c = 'x' then numbered 2 rest
    else if c = 'u' then numbered 4 rest
    else if c = 'U' then numbered 8 rest
    else none

/-- A quote mark: whether backslashes have a meaning between two of them. -/
structure Mark where
  char : Char
  escapes : Bool

/-- The double quote. -/
def Mark.double : Mark := ⟨'"', true⟩

/-- The single quote. -/
def Mark.single : Mark := ⟨'\'', false⟩

/-- The text of characters collected in reverse. -/
def collected (chars : List Char) : String :=
  String.ofList chars.reverse

/-- A round within a line. -/
def Mark.lineRound (mark : Mark) (chars : List Char) : Reader (Round (List Char) String)
  | [] => none
  | c :: rest =>
    if c = mark.char then some (.done (collected chars), rest)
    else if mark.escapes && c = '\\' then
      (escape rest).map fun (escaped, rest) => (.more (escaped :: chars), rest)
    else if isPlain c then some (.more (c :: chars), rest)
    else none

/-- Drops a line end at the front. -/
def dropLineEnd : List Char → List Char
  | '\n' :: rest => rest
  | '\r' :: '\n' :: rest => rest
  | text => text

/-- Blanks and line ends after a backslash, if there is a line end directly after the blanks. -/
def continuation? (text : List Char) : Option (List Char) :=
  let isGap (c : Char) : Bool := isBlank c || c == '\n'
  let rec skip : List Char → List Char
    | '\r' :: '\n' :: rest => skip rest
    | c :: rest => if isGap c then skip rest else c :: rest
    | [] => []
  match skipBlanks text with
  | '\n' :: rest => some (skip rest)
  | '\r' :: '\n' :: rest => some (skip rest)
  | _ => none

/-- A round within several lines. -/
def Mark.blockRound (mark : Mark) (chars : List Char) : Reader (Round (List Char) String)
  | [] => none
  | '\n' :: rest => some (.more ('\n' :: chars), rest)
  | '\r' :: '\n' :: rest => some (.more ('\n' :: '\r' :: chars), rest)
  | c :: rest =>
    if c = mark.char then
      let marks := ((c :: rest).takeWhile (· = mark.char)).take 5
      let rest := (c :: rest).drop marks.length
      if marks.length < 3 then some (.more (marks ++ chars), rest)
      else some (.done (collected (marks.drop 3 ++ chars)), rest)
    else if mark.escapes && c = '\\' then
      match continuation? rest with
      | some rest => some (.more chars, rest)
      | none => (escape rest).map fun (escaped, rest) => (.more (escaped :: chars), rest)
    else if isPlain c then some (.more (c :: chars), rest)
    else none

/-- Quoted text within a line. -/
def quotedLine : Reader String
  | '"' :: rest => rounds Mark.double.lineRound [] rest
  | '\'' :: rest => rounds Mark.single.lineRound [] rest
  | _ => none

/-- Quoted text. -/
def quoted : Reader String
  | '"' :: '"' :: '"' :: rest => rounds Mark.double.blockRound [] (dropLineEnd rest)
  | '\'' :: '\'' :: '\'' :: rest => rounds Mark.single.blockRound [] (dropLineEnd rest)
  | text => quotedLine text

end ClientLoom.Toml
