import ClientLoom.Number.Double
import ClientLoom.Reading
import ClientLoom.Toml.DateTime
import ClientLoom.Toml.Quoted

/-!
# Scalars

Truth values, numbers, dates and quoted text.  A scalar without quotes is a word: everything up to
the next blank, separator, bracket, quote or comment.
-/

namespace ClientLoom.Toml

/-- A character of a word. -/
def isWordChar (c : Char) : Bool :=
  !(isBlank c || c == '\n' || c == '\r' || c == '#' || c == '=' || c == ',' || c == '[' ||
    c == ']' || c == '{' || c == '}' || c == '"' || c == '\'')

/-- Digits with single underscores between them; the digits alone. -/
def digits? (isDigit : Char → Bool) : List Char → Option (List Char)
  | [] => none
  | [c] => if isDigit c then some [c] else none
  | c :: '_' :: rest => if isDigit c then (digits? isDigit rest).map (c :: ·) else none
  | c :: rest => if isDigit c then (digits? isDigit rest).map (c :: ·) else none

/-- The number that digits denote in a base. -/
def numberOf (base : Nat) (digits : List Char) : Nat :=
  digits.foldl (fun n c => n * base + (Json.hexDigit? c).getD 0) 0

/-- A digit of a base. -/
def isDigitOf (base : Nat) (c : Char) : Bool :=
  match Json.hexDigit? c with
  | some d => d < base
  | none => false

/-- Decimal digits without a zero in front. -/
def wholeDigits? (text : List Char) : Option (List Char) :=
  match digits? Char.isDigit text with
  | some ('0' :: _ :: _) => none
  | other => other

/-- An integer: a number if it fits 64 bits, with or without sign; one that fits twice as many is
read and cannot be kept. -/
def integer (n : Int) : Reading :=
  if -Int.pow 2 63 ≤ n ∧ n < Int.pow 2 64 then .number (.integer n)
  else if -Int.pow 2 127 ≤ n ∧ n < Int.pow 2 128 then .unkept .null
  else .broken

/-- An integer in a base other than ten. -/
def basedInteger? : List Char → Option Reading
  | '0' :: mark :: rest =>
    let base := if mark = 'x' then 16 else if mark = 'o' then 8 else if mark = 'b' then 2 else 0
    (digits? (isDigitOf base) rest).map fun digits => integer (numberOf base digits)
  | _ => none

/-- The mark of an exponent. -/
def isExponentMark (c : Char) : Bool :=
  c == 'e' || c == 'E'

/-- An exponent with its mark; zero if there is none. -/
def exponent? : List Char → Option Int
  | [] => some 0
  | _ :: '+' :: rest => (digits? Char.isDigit rest).map fun d => (numberOf 10 d : Int)
  | _ :: '-' :: rest => (digits? Char.isDigit rest).map fun d => -(numberOf 10 d : Int)
  | _ :: rest => (digits? Char.isDigit rest).map fun d => (numberOf 10 d : Int)

/-- The digits of a fraction with its point; none if there is no point. -/
def fraction? : List Char → Option (List Char)
  | [] => some []
  | _ :: rest => digits? Char.isDigit rest

/-- A number with a fraction or an exponent, its sign given.  One that is too large fails. -/
def decimal? (negative : Bool) (text : List Char) : Option Reading := do
  let front := text.takeWhile fun c => !isExponentMark c
  let whole ← wholeDigits? (front.takeWhile (· ≠ '.'))
  let fraction ← fraction? (front.dropWhile (· ≠ '.'))
  let exponent ← exponent? (text.drop front.length)
  let value ← Number.Double.ofDecimal negative (numberOf 10 (whole ++ fraction))
    (exponent - fraction.length)
  pure (.number (.double value))

/-- A number without its sign. -/
def unsigned? (negative : Bool) (text : List Char) : Option Reading :=
  if text = "inf".toList ∨ text = "nan".toList then some .notFinite
  else if text.any fun c => c == '.' || isExponentMark c then decimal? negative text
  else
    (wholeDigits? text).map fun digits =>
      integer (if negative then -(numberOf 10 digits : Int) else numberOf 10 digits)

/-- A date or time, as an object with a single field that holds its text. -/
def moment? (text : List Char) : Option Reading :=
  (DateTime.ofText? text).map fun moment =>
    .object [(some "$__toml_private_datetime", .string moment.render)] true

/-- The meaning of a word. -/
def word? (text : List Char) : Option Reading :=
  if text = "true".toList then some (.bool true)
  else if text = "false".toList then some (.bool false)
  else
    match text with
    | '+' :: rest => unsigned? false rest
    | '-' :: rest => unsigned? true rest
    | _ => (moment? text).or ((basedInteger? text).or (unsigned? false text))

/-- The word at the front of a text.  A date and a time with one blank between them are one word. -/
def takeWord (text : List Char) : List Char × List Char :=
  let word := text.takeWhile isWordChar
  let rest := text.drop word.length
  match Date.read word, rest with
  | some (_, []), ' ' :: c :: more =>
    if c.isDigit then
      let time := (c :: more).takeWhile isWordChar
      (word ++ ' ' :: time, (c :: more).drop time.length)
    else (word, rest)
  | _, _ => (word, rest)

/-- A scalar. -/
def scalar : Reader Reading
  | text@('"' :: _) | text@('\'' :: _) => (quoted text).map fun (s, rest) => (.string s, rest)
  | text =>
    let (word, rest) := takeWord text
    (word? word).map fun reading => (reading, rest)

end ClientLoom.Toml
