/-!
# Globs

A glob describes paths: `*` and `?` stand for characters of one segment, `[...]` and `[!...]` for
one character of a class, and `**` as a whole segment for any number of segments.
-/

namespace ClientLoom

/-- A part of a glob. -/
inductive GlobToken
  | literal (char : Char)
  /-- One character. -/
  | any
  /-- Any characters within a segment. -/
  | anyText
  /-- Any number of segments. -/
  | anyFolders
  /-- One character in some ranges, or in none of them. -/
  | inClass (negated : Bool) (ranges : List (Char × Char))

/-- What is wrong with a glob. -/
inductive GlobReason
  | badClass
  | longWildcard
  | partialWildcard
deriving DecidableEq

/-- The description of a reason. -/
def GlobReason.message : GlobReason → String
  | .badClass => "invalid range pattern"
  | .longWildcard => "wildcards are either regular `*` or recursive `**`"
  | .partialWildcard => "recursive wildcards must form a single path component"

/-- A fault of a glob and its place, counted in characters. -/
structure GlobFault where
  position : Nat
  reason : GlobReason
deriving DecidableEq

/-- A glob. -/
structure Glob where
  tokens : List GlobToken

namespace Glob

/-- The ranges of the characters of a class; a single character is a range of its own. -/
def ranges : List Char → List (Char × Char)
  | first :: '-' :: last :: rest => (first, last) :: ranges rest
  | c :: rest => (c, c) :: ranges rest
  | [] => []

/-- What the reader is in the middle of.  `atStart` says that a segment begins here. -/
inductive Mode
  | plain (atStart : Bool)
  | stars (start : Nat) (atStart : Bool) (count : Nat)
  /-- Directly behind the bracket of a class. -/
  | opened (start : Nat)
  /-- In a class; its characters in reverse. -/
  | listing (start : Nat) (negated : Bool) (chars : List Char)

/-- A character outside of wildcards and classes. -/
def plainStep (atStart : Bool) (position : Nat) (c : Char) : List GlobToken × Mode :=
  if c = '?' then ([.any], .plain false)
  else if c = '*' then ([], .stars position atStart 1)
  else if c = '[' then ([], .opened position)
  else ([.literal c], .plain (c = '/'))

namespace Mode

/-- One character: the parts that it completes, and what comes next. -/
def step (mode : Mode) (position : Nat) (c : Char) : Except GlobFault (List GlobToken × Mode) :=
  match mode with
  | .plain atStart => .ok (plainStep atStart position c)
  | .stars start atStart count =>
    if c = '*' then .ok ([], .stars start atStart (count + 1))
    else if count = 1 then
      let (tokens, mode) := plainStep false position c
      .ok (.anyText :: tokens, mode)
    else if 2 < count then .error ⟨start + 2, .longWildcard⟩
    else if !atStart then .error ⟨start - 1, .partialWildcard⟩
    else if c = '/' then .ok ([.anyFolders], .plain true)
    else .error ⟨position, .partialWildcard⟩
  | .opened start =>
    if c = '!' then .ok ([], .listing start true []) else .ok ([], .listing start false [c])
  | .listing start negated chars =>
    if c = ']' ∧ chars ≠ [] then .ok ([.inClass negated (ranges chars.reverse)], .plain false)
    else .ok ([], .listing start negated (c :: chars))

/-- What the end of the glob completes. -/
def finish : Mode → Except GlobFault (List GlobToken)
  | .plain _ => .ok []
  | .stars start atStart count =>
    if count = 1 then .ok [.anyText]
    else if 2 < count then .error ⟨start + 2, .longWildcard⟩
    else if atStart then .ok [.anyFolders]
    else .error ⟨start - 1, .partialWildcard⟩
  | .opened start => .error ⟨start, .badClass⟩
  | .listing start _ _ => .error ⟨start, .badClass⟩

end Mode

/-- The parts of a glob from a place on. -/
def tokensFrom (mode : Mode) (position : Nat) : List Char → Except GlobFault (List GlobToken)
  | [] => mode.finish
  | c :: rest => do
    let (tokens, mode) ← mode.step position c
    let others ← tokensFrom mode (position + 1) rest
    pure (tokens ++ others)

/-- The glob of a text. -/
def ofText (text : String) : Except GlobFault Glob :=
  Glob.mk <$> tokensFrom (.plain true) 0 text.toList

/-- The outcome of a comparison.  When the path ended too early, no other choice for an earlier
wildcard can help. -/
inductive Verdict
  | matched
  | mismatch
  | exhausted
deriving DecidableEq

/-- Tries a comparison at every place of a segment. -/
def tryWithinSegment (next : List Char → Verdict) : List Char → Verdict
  | [] => next []
  | c :: rest =>
    match next (c :: rest) with
    | .mismatch => if c = '/' then .mismatch else tryWithinSegment next rest
    | verdict => verdict

/-- Tries a comparison behind every `/`, and at last at the end. -/
def tryBehindSlashes (next : List Char → Verdict) : List Char → Verdict
  | [] => next []
  | c :: rest =>
    if c = '/' then
      match next rest with
      | .mismatch => tryBehindSlashes next rest
      | verdict => verdict
    else tryBehindSlashes next rest

/-- Tries a comparison at the start of every segment, and at last at the end. -/
def tryAtSegments (next : List Char → Verdict) (path : List Char) : Verdict :=
  match next path with
  | .mismatch => tryBehindSlashes next path
  | verdict => verdict

/-- The part stands for the character. -/
def accepts (token : GlobToken) (c : Char) : Bool :=
  match token with
  | .literal l => c == l
  | .any => c != '/'
  | .inClass negated ranges =>
    c != '/' && (ranges.any fun range => range.1 ≤ c && c ≤ range.2) != negated
  | .anyText | .anyFolders => false

/-- Compares parts with a path. -/
def compare : List GlobToken → List Char → Verdict
  | [], [] => .matched
  | [], _ :: _ => .mismatch
  | .anyText :: rest, path => tryWithinSegment (compare rest) path
  | .anyFolders :: rest, path => tryAtSegments (compare rest) path
  | _ :: _, [] => .exhausted
  | token :: rest, c :: path => if accepts token c then compare rest path else .mismatch

/-- The glob describes the path. -/
def covers (glob : Glob) (path : String) : Bool :=
  compare glob.tokens path.toList == .matched

end Glob

end ClientLoom
