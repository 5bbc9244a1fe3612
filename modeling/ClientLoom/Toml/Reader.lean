/-!
# Readers

A reader takes a value from the front of a text and leaves the rest, or fails.  A repetition runs
rounds of a reader until one of them is the last; since a round takes at least one character or is
the last, there are no more rounds than characters, and one.
-/

namespace ClientLoom.Toml

/-- What is taken from the front of a text, and what is left. -/
abbrev Reader (α : Type) := List Char → Option (α × List Char)

/-- What a round of a repetition says. -/
inductive Round (σ α : Type)
  | more (state : σ)
  | done (result : α)

/-- At most `count` rounds. -/
def roundsUpTo {σ α : Type} (round : σ → Reader (Round σ α)) : Nat → σ → Reader α
  | 0, _, _ => none
  | count + 1, state, text =>
    match round state text with
    | none => none
    | some (.done result, rest) => some (result, rest)
    | some (.more state, rest) => roundsUpTo round count state rest

/-- Rounds until the last. -/
def rounds {σ α : Type} (round : σ → Reader (Round σ α)) (start : σ) : Reader α :=
  fun text => roundsUpTo round (text.length + 1) start text

/-- A blank within a line. -/
def isBlank (c : Char) : Bool :=
  c == ' ' || c == '\t'

/-- A character that may stand for itself in a text or a comment. -/
def isPlain (c : Char) : Bool :=
  c == '\t' || (0x20 ≤ c.toNat && c.toNat != 0x7f)

/-- Drops blanks. -/
def skipBlanks (text : List Char) : List Char :=
  text.dropWhile isBlank

/-- Drops blanks, line ends and comments; `inside` a comment at the start or not. -/
def skipGap (inside : Bool) : List Char → List Char
  | [] => []
  | '\n' :: rest => skipGap false rest
  | '\r' :: '\n' :: rest => skipGap false rest
  | c :: rest =>
    if inside then
      if isPlain c then skipGap true rest else c :: rest
    else if c = '#' then skipGap true rest
    else if isBlank c then skipGap false rest
    else c :: rest

/-- The end of a line: blanks, perhaps a comment, and a line end or the end of the text. -/
def lineEnd? (text : List Char) : Option (List Char) :=
  let rest :=
    match skipBlanks text with
    | '#' :: comment => comment.dropWhile isPlain
    | other => other
  match rest with
  | [] => some []
  | '\n' :: rest => some rest
  | '\r' :: '\n' :: rest => some rest
  | _ => none

end ClientLoom.Toml
