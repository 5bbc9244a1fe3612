/-!
# Dates and times

A date, a time, or both, and then perhaps an offset from universal time.
-/

namespace ClientLoom.Toml

/-- A day. -/
structure Date where
  year : Nat
  month : Nat
  day : Nat

/-- A time of day; the fraction of a second has at most nine digits. -/
structure Time where
  hour : Nat
  minute : Nat
  second : Nat
  fraction : List Char

/-- The distance from universal time. -/
inductive Offset
  | universal
  | shifted (west : Bool) (total : Nat)

/-- A date, a time, or both. -/
structure DateTime where
  date : Option Date
  time : Option Time
  offset : Option Offset

/-- A decimal number in at least so many digits. -/
def padded (width n : Nat) : String :=
  let digits := Nat.toDigits 10 n
  String.ofList (List.replicate (width - digits.length) '0' ++ digits)

/-- A number that is a run of exactly so many digits. -/
def fixedNumber (width : Nat) (text : List Char) : Option (Nat × List Char) :=
  let digits := text.takeWhile Char.isDigit
  if digits.length = width then
    some (digits.foldl (fun n c => n * 10 + (c.toNat - 48)) 0, text.drop width)
  else none

/-- A character. -/
def expect (c : Char) : List Char → Option (List Char)
  | d :: rest => if d = c then some rest else none
  | [] => none

/-- A year of 366 days. -/
def isLeapYear (year : Nat) : Bool :=
  year % 4 == 0 && (year % 100 != 0 || year % 400 == 0)

/-- The number of days of a month. -/
def daysOf (year month : Nat) : Nat :=
  if month = 2 then if isLeapYear year then 29 else 28
  else if month = 4 ∨ month = 6 ∨ month = 9 ∨ month = 11 then 30
  else 31

namespace Date

/-- Reads a date. -/
def read (text : List Char) : Option (Date × List Char) := do
  let (year, rest) ← fixedNumber 4 text
  let rest ← expect '-' rest
  let (month, rest) ← fixedNumber 2 rest
  let rest ← expect '-' rest
  let (day, rest) ← fixedNumber 2 rest
  if 1 ≤ month ∧ month ≤ 12 ∧ 1 ≤ day ∧ day ≤ daysOf year month then
    some (⟨year, month, day⟩, rest)
  else none

/-- The text of a date. -/
def render (date : Date) : String :=
  padded 4 date.year ++ "-" ++ padded 2 date.month ++ "-" ++ padded 2 date.day

end Date

namespace Time

/-- Reads a fraction of a second: its first nine digits. -/
def readFraction : List Char → Option (List Char × List Char)
  | '.' :: rest =>
    let digits := rest.takeWhile Char.isDigit
    if digits.isEmpty then none else some (digits.take 9, rest.drop digits.length)
  | rest => some ([], rest)

/-- Reads the seconds of a time.  They may be missing. -/
def readSeconds : List Char → Option (Nat × List Char × List Char)
  | ':' :: rest => do
    let (second, rest) ← fixedNumber 2 rest
    let (fraction, rest) ← readFraction rest
    pure (second, fraction, rest)
  | rest => some (0, [], rest)

/-- Reads a time. -/
def read (text : List Char) : Option (Time × List Char) := do
  let (hour, rest) ← fixedNumber 2 text
  let rest ← expect ':' rest
  let (minute, rest) ← fixedNumber 2 rest
  let (second, fraction, rest) ← readSeconds rest
  if hour ≤ 23 ∧ minute ≤ 59 ∧ second ≤ 60 then some (⟨hour, minute, second, fraction⟩, rest)
  else none

/-- The text of a fraction without the zeros at the end; nothing if no digit is left. -/
def renderFraction (digits : List Char) : String :=
  let kept := (digits.reverse.dropWhile (· = '0')).reverse
  if kept.isEmpty then "" else "." ++ String.ofList kept

/-- The text of a time, with its seconds. -/
def render (time : Time) : String :=
  padded 2 time.hour ++ ":" ++ padded 2 time.minute ++ ":" ++ padded 2 time.second ++
    renderFraction time.fraction

end Time

namespace Offset

/-- Reads the distance after its sign. -/
def readMinutes (west : Bool) (text : List Char) : Option (Offset × List Char) := do
  let (hours, rest) ← fixedNumber 2 text
  let rest ← expect ':' rest
  let (minutes, rest) ← fixedNumber 2 rest
  if hours ≤ 23 ∧ minutes ≤ 59 then some (.shifted west (hours * 60 + minutes), rest) else none

/-- Reads an offset, if there is anything to read. -/
def read : List Char → Option (Option Offset × List Char)
  | [] => some (none, [])
  | c :: rest =>
    if c = 'Z' ∨ c = 'z' then some (some .universal, rest)
    else if c = '+' then (readMinutes false rest).map fun (offset, rest) => (some offset, rest)
    else if c = '-' then (readMinutes true rest).map fun (offset, rest) => (some offset, rest)
    else none

/-- The text of an offset; no distance has the sign of an eastern one. -/
def render : Offset → String
  | .universal => "Z"
  | .shifted west total =>
    (if west && total != 0 then "-" else "+") ++ padded 2 (total / 60) ++ ":" ++
      padded 2 (total % 60)

end Offset

namespace DateTime

/-- Reads what follows a date: nothing, or a time and perhaps an offset. -/
def afterDate (date : Date) : List Char → Option DateTime
  | [] => some ⟨some date, none, none⟩
  | c :: rest =>
    if c = 'T' ∨ c = 't' ∨ c = ' ' then do
      let (time, rest) ← Time.read rest
      let (offset, rest) ← Offset.read rest
      if rest.isEmpty then some ⟨some date, some time, offset⟩ else none
    else none

/-- The date or time that a whole text denotes. -/
def ofText? (text : List Char) : Option DateTime :=
  match Date.read text with
  | some (date, rest) => afterDate date rest
  | none =>
    match Time.read text with
    | some (time, []) => some ⟨none, some time, none⟩
    | _ => none

/-- The text of a date or time: a `T` divides the two. -/
def render (moment : DateTime) : String :=
  let date := (moment.date.map Date.render).getD ""
  let between := if moment.date.isSome && moment.time.isSome then "T" else ""
  let time := (moment.time.map Time.render).getD ""
  let offset := (moment.offset.map Offset.render).getD ""
  date ++ between ++ time ++ offset

end DateTime

end ClientLoom.Toml
