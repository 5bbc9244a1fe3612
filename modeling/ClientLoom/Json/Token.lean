import ClientLoom.Json.NumberLiteral

/-!
# Tokens of JSON text

A text is split into tokens by a machine that reads one character at a time.  The machine stops at
the first character that no token can take; the token `broken` marks the place.  A string with an
unpaired surrogate is a token but denotes no text.
-/

namespace ClientLoom.Json

/-- A token. -/
inductive Token
  | arrayOpen
  | arrayClose
  | objectOpen
  | objectClose
  | comma
  | colon
  | null
  | bool (value : Bool)
  | number (literal : NumberLiteral)
  | string (text : Option String)
  | broken

/-- A string under way: its characters in reverse, a leading surrogate that awaits its partner, and
whether every surrogate so far is paired. -/
structure Quotation where
  chars : List Char := []
  leading : Option Nat := none
  paired : Bool := true

namespace Quotation

/-- Adds a character; a surrogate that awaits its partner stays alone. -/
def push (q : Quotation) (c : Char) : Quotation :=
  { chars := c :: q.chars, leading := none, paired := q.paired && q.leading.isNone }

/-- Adds a code unit given by number. -/
def pushUnit (q : Quotation) (n : Nat) : Quotation :=
  if 0xDC00 ≤ n ∧ n ≤ 0xDFFF then
    match q.leading with
    | some high =>
      { q with
        chars := Char.ofNat ((high - 0xD800) * 0x400 + (n - 0xDC00) + 0x10000) :: q.chars
        leading := none }
    | none => { q with paired := false }
  else if 0xD800 ≤ n ∧ n ≤ 0xDBFF then
    { q with leading := some n, paired := q.paired && q.leading.isNone }
  else q.push (Char.ofNat n)

/-- The text, if every surrogate is paired. -/
def text? (q : Quotation) : Option String :=
  if q.paired && q.leading.isNone then some (String.ofList q.chars.reverse) else none

end Quotation

/-- The part of a number that was read last. -/
inductive NumberPart
  | sign
  | zero
  | whole
  | point
  | fraction
  | mark
  | markSign
  | exponent

/-- A number may end after this part. -/
def NumberPart.mayEnd : NumberPart → Bool
  | .zero | .whole | .fraction | .exponent => true
  | .sign | .point | .mark | .markSign => false

/-- What the machine is in the middle of. -/
inductive Mode
  | ready
  | word (rest : List Char) (token : Token)
  | number (part : NumberPart) (literal : NumberLiteral)
  | string (quotation : Quotation)
  | escape (quotation : Quotation)
  | unit (quotation : Quotation) (left : Nat) (value : Nat)
  | stopped

/-- The value of a decimal digit. -/
def digit? (c : Char) : Option Nat :=
  if c.isDigit then some (c.toNat - 48) else none

/-- The value of a hexadecimal digit. -/
def hexDigit? (c : Char) : Option Nat :=
  if c.isDigit then some (c.toNat - 48)
  else if 'a' ≤ c ∧ c ≤ 'f' then some (c.toNat - 87)
  else if 'A' ≤ c ∧ c ≤ 'F' then some (c.toNat - 55)
  else none

/-- A blank between tokens. -/
def isSpace (c : Char) : Bool :=
  c == ' ' || c == '\n' || c == '\t' || c == '\r'

/-- A character between two tokens. -/
def readyStep (c : Char) : List Token × Mode :=
  if isSpace c then ([], .ready)
  else if c = '[' then ([.arrayOpen], .ready)
  else if c = ']' then ([.arrayClose], .ready)
  else if c = '{' then ([.objectOpen], .ready)
  else if c = '}' then ([.objectClose], .ready)
  else if c = ',' then ([.comma], .ready)
  else if c = ':' then ([.colon], .ready)
  else if c = '"' then ([], .string {})
  else if c = 'n' then ([], .word ['u', 'l', 'l'] .null)
  else if c = 't' then ([], .word ['r', 'u', 'e'] (.bool true))
  else if c = 'f' then ([], .word ['a', 'l', 's', 'e'] (.bool false))
  else if c = '-' then ([], .number .sign { negative := true })
  else if c = '0' then ([], .number .zero { whole := [0] })
  else
    match digit? c with
    | some d => ([], .number .whole { whole := [d] })
    | none => ([.broken], .stopped)

/-- The number with the character added, its digits in reverse; none if the character is not part
of the number. -/
def numberStep (part : NumberPart) (lit : NumberLiteral) (c : Char) :
    Option (NumberPart × NumberLiteral) :=
  match part, digit? c with
  | .sign, some d => some (if d = 0 then .zero else .whole, { lit with whole := [d] })
  | .whole, some d => some (.whole, { lit with whole := d :: lit.whole })
  | .point, some d => some (.fraction, { lit with fraction := [d] })
  | .fraction, some d => some (.fraction, { lit with fraction := d :: lit.fraction })
  | .mark, some d | .markSign, some d => some (.exponent, { lit with exponent := [d] })
  | .exponent, some d => some (.exponent, { lit with exponent := d :: lit.exponent })
  | .zero, some _ => none
  | .zero, none | .whole, none =>
    if c = '.' then some (.point, { lit with hasFraction := true })
    else if c = 'e' ∨ c = 'E' then some (.mark, { lit with hasExponent := true })
    else none
  | .fraction, none =>
    if c = 'e' ∨ c = 'E' then some (.mark, { lit with hasExponent := true }) else none
  | .mark, none =>
    if c = '+' then some (.markSign, lit)
    else if c = '-' then some (.markSign, { lit with exponentNegative := true })
    else none
  | .sign, none | .point, none | .markSign, none | .exponent, none => none

/-- The token of a number whose digits were collected in reverse. -/
def numberToken (lit : NumberLiteral) : Token :=
  .number { lit with
    whole := lit.whole.reverse
    fraction := lit.fraction.reverse
    exponent := lit.exponent.reverse }

/-- A character directly after a leading zero is a digit. -/
def NumberPart.clashes (part : NumberPart) (c : Char) : Bool :=
  match part with
  | .zero => c.isDigit
  | _ => false

/-- One character: the tokens that it completes, and what comes next. -/
def Mode.step : Mode → Char → List Token × Mode
  | .stopped, _ => ([], .stopped)
  | .ready, c => readyStep c
  | .word [] token, c =>
    let (more, mode) := readyStep c
    (token :: more, mode)
  | .word (w :: rest) token, c =>
    if c = w then
      if rest.isEmpty then ([token], .ready) else ([], .word rest token)
    else ([.broken], .stopped)
  | .number part lit, c =>
    match numberStep part lit c with
    | some (part, lit) => ([], .number part lit)
    | none =>
      if part.mayEnd && !part.clashes c then
        let (more, mode) := readyStep c
        (numberToken lit :: more, mode)
      else ([.broken], .stopped)
  | .string q, c =>
    if c = '"' then ([.string q.text?], .ready)
    else if c = '\\' then ([], .escape q)
    else if c.toNat < 0x20 then ([.broken], .stopped)
    else ([], .string (q.push c))
  | .escape q, c =>
    if c = '"' ∨ c = '\\' ∨ c = '/' then ([], .string (q.push c))
    else if c = 'b' then ([], .string (q.push '\x08'))
    else if c = 'f' then ([], .string (q.push '\x0c'))
    else if c = 'n' then ([], .string (q.push '\n'))
    else if c = 'r' then ([], .string (q.push '\r'))
    else if c = 't' then ([], .string (q.push '\t'))
    else if c = 'u' then ([], .unit q 4 0)
    else ([.broken], .stopped)
  | .unit q left value, c =>
    match hexDigit? c with
    | none => ([.broken], .stopped)
    | some d =>
      if left ≤ 1 then ([], .string (q.pushUnit (value * 16 + d)))
      else ([], .unit q (left - 1) (value * 16 + d))

/-- What the end of the text completes. -/
def Mode.finish : Mode → List Token
  | .ready | .stopped => []
  | .word [] token => [token]
  | .number part lit => if part.mayEnd then [numberToken lit] else [.broken]
  | .word (_ :: _) _ | .string _ | .escape _ | .unit _ _ _ => [.broken]

/-- The tokens of a text. -/
def tokens (text : List Char) : List Token :=
  let (done, mode) := text.foldl
    (fun (state : List Token × Mode) c =>
      let (more, mode) := state.2.step c
      (more.reverse ++ state.1, mode))
    ([], .ready)
  done.reverse ++ mode.finish

end ClientLoom.Json
