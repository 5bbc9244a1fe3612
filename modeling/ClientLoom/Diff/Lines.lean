/-!
# Lines

A text is cut into lines behind every line end.  A line keeps its line end, so that the lines put
together give the text again; only the last line may have none.
-/

namespace ClientLoom.Diff

/-- The lines of a text, as characters. -/
def splitLines : List Char → List (List Char)
  | [] => []
  | '\r' :: '\n' :: rest => ['\r', '\n'] :: splitLines rest
  | c :: rest =>
    if c = '\n' ∨ c = '\r' then [c] :: splitLines rest
    else
      match splitLines rest with
      | [] => [[c]]
      | line :: others => (c :: line) :: others

/-- The lines of a text. -/
def linesOf (text : String) : Array String :=
  ((splitLines text.toList).map String.ofList).toArray

/-- The line has a line end. -/
def isTerminated (line : String) : Bool :=
  match line.toList.getLast? with
  | some c => c == '\n' || c == '\r'
  | none => false

/-- How many lines, at most `limit`, agree from two places on. -/
def commonPrefix (xs ys : Array String) : Nat → Nat → Nat → Nat
  | 0, _, _ => 0
  | limit + 1, i, j => if xs[i]? == ys[j]? then commonPrefix xs ys limit (i + 1) (j + 1) + 1 else 0

/-- How many lines, at most `limit`, agree directly before two places. -/
def commonSuffix (xs ys : Array String) : Nat → Nat → Nat → Nat
  | 0, _, _ => 0
  | limit + 1, i, j =>
    if xs[i - 1]? == ys[j - 1]? then commonSuffix xs ys limit (i - 1) (j - 1) + 1 else 0

end ClientLoom.Diff
