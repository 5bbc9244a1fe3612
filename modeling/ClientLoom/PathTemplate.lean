import ClientLoom.Tag
import ClientLoom.Text.Identifier

/-!
# Path templates

A path is literal text with tokens: an identifier between braces.  Braces around anything else are
literal text.
-/

namespace ClientLoom

open Text (isIdentifierStart isIdentifierChar)

/-- A part of a path. -/
inductive PathPart
  | text (chars : List Char)
  | token (key : List Char)
deriving DecidableEq

namespace PathPart

/-- The part as it stands in the path. -/
def chars : PathPart → List Char
  | .text cs => cs
  | .token key => '{' :: (key ++ ['}'])

end PathPart

namespace PathTemplate

/-- The key of a token and what follows it, right after an opening brace. -/
def tokenAfterBrace? : List Char → Option (List Char × List Char)
  | [] => none
  | c :: rest =>
    if isIdentifierStart c then
      match rest.dropWhile isIdentifierChar with
      | '}' :: after => some (c :: rest.takeWhile isIdentifierChar, after)
      | _ => none
    else none

/-- What follows a token is shorter than what follows its brace. -/
theorem length_of_tokenAfterBrace? {cs key after : List Char}
    (h : tokenAfterBrace? cs = some (key, after)) : after.length < cs.length := by
  cases cs with
  | nil => simp [tokenAfterBrace?] at h
  | cons c rest =>
    simp only [tokenAfterBrace?] at h
    split at h
    · split at h
      · next after' hd =>
        simp only [Option.some.injEq, Prod.mk.injEq] at h
        have hlen : (rest.dropWhile isIdentifierChar).length ≤ rest.length :=
          (List.dropWhile_suffix _).length_le
        rw [hd, h.2] at hlen
        simp only [List.length_cons] at hlen ⊢
        omega
      · simp at h
    · simp at h

/-- Puts a literal character in front of the parts. -/
def consText (c : Char) : List PathPart → List PathPart
  | .text cs :: rest => .text (c :: cs) :: rest
  | parts => .text [c] :: parts

/-- The parts of a path, literal text in one piece between tokens. -/
def parts : List Char → List PathPart
  | [] => []
  | c :: rest =>
    if c = '{' then
      match _h : tokenAfterBrace? rest with
      | some (key, after) => .token key :: parts after
      | none => consText c (parts rest)
    else consText c (parts rest)
termination_by cs => cs.length
decreasing_by
  · have := length_of_tokenAfterBrace? _h
    simp only [List.length_cons]
    omega
  · simp
  · simp

end PathTemplate

/-- A token of a path, with the byte offsets where it starts and stops. -/
structure PathToken where
  key : String
  start : Nat
  stop : Nat

namespace PathToken

/-- The tokens among the parts that follow `offset` bytes. -/
def ofParts (offset : Nat) : List PathPart → List PathToken
  | [] => []
  | .text cs :: rest => ofParts (offset + byteLength cs) rest
  | .token key :: rest =>
    let stop := offset + byteLength (PathPart.token key).chars
    ⟨String.ofList key, offset, stop⟩ :: ofParts stop rest

/-- The tokens of a path, from left to right. -/
def scan (path : String) : List PathToken :=
  ofParts 0 (PathTemplate.parts path.toList)

end PathToken

end ClientLoom
