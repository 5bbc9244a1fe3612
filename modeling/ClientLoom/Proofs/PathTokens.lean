import ClientLoom.PathTemplate
import ClientLoom.Proofs.TagSearch
import Mathlib.Data.String.Basic

/-!
# Tokens of a path

The parts of a path put together give the path again, the keys of its tokens are identifiers, and
two pieces of literal text never stand side by side.  So a path whose tokens are replaced by values,
span by span, is the values between the pieces of literal text.
-/

namespace ClientLoom

open Text (isIdentifierStart isIdentifierChar isIdentifierChars)

namespace Text

theorem isIdentifierChar_of_start {c : Char} (h : isIdentifierStart c = true) :
    isIdentifierChar c = true := by
  simp only [isIdentifierStart, isIdentifierChar, Char.isAlphanum, Bool.or_eq_true] at h ⊢
  tauto

theorem all_of_isIdentifierChars {name : List Char} (h : isIdentifierChars name = true) :
    ∀ c ∈ name, isIdentifierChar c = true := by
  cases name with
  | nil => cases h
  | cons c rest =>
      rw [isIdentifierChars, Bool.and_eq_true, List.all_eq_true] at h
      intro d hd
      rcases List.mem_cons.1 hd with rfl | hd
      · exact isIdentifierChar_of_start h.1
      · exact h.2 d hd

/-- An identifier ends in front of a character that no identifier has. -/
theorem span_identifier {name : List Char} (hname : ∀ d ∈ name, isIdentifierChar d = true)
    {c : Char} (hc : isIdentifierChar c = false) (rest : List Char) :
    (name ++ c :: rest).takeWhile isIdentifierChar = name ∧
      (name ++ c :: rest).dropWhile isIdentifierChar = c :: rest := by
  rw [List.takeWhile_append_of_pos hname, List.dropWhile_append_of_pos hname,
    List.takeWhile_cons_of_neg (by simp [hc]), List.dropWhile_cons_of_neg (by simp [hc]),
    List.append_nil]
  exact ⟨rfl, rfl⟩

end Text

namespace PathTemplate

/-- Keys of tokens are identifiers, and literal text is in one piece between tokens. -/
inductive WellFormed : List PathPart → Prop
  | nil : WellFormed []
  | token {key : List Char} {rest : List PathPart} (hkey : isIdentifierChars key = true)
      (hrest : WellFormed rest) : WellFormed (.token key :: rest)
  | text {cs : List Char} {rest : List PathPart} (hnext : ∀ next, rest.head? ≠ some (.text next))
      (hrest : WellFormed rest) : WellFormed (.text cs :: rest)

/-- A token is an identifier in front of a closing brace. -/
theorem of_tokenAfterBrace? {cs key after : List Char}
    (h : tokenAfterBrace? cs = some (key, after)) :
    isIdentifierChars key = true ∧ cs = key ++ '}' :: after := by
  cases cs with
  | nil => cases h
  | cons c rest =>
      rw [tokenAfterBrace?] at h
      split at h
      · rename_i hstart
        split at h
        · rename_i after' hdrop
          obtain ⟨rfl, rfl⟩ := Prod.mk.inj (Option.some.inj h)
          refine ⟨?_, ?_⟩
          · rw [isIdentifierChars, hstart, Bool.true_and]
            exact List.all_takeWhile
          · rw [List.cons_append, ← hdrop, List.takeWhile_append_dropWhile]
        · cases h
      · cases h

@[simp] theorem flatMap_consText (c : Char) (pieces : List PathPart) :
    (consText c pieces).flatMap PathPart.chars = c :: pieces.flatMap PathPart.chars := by
  unfold consText
  split
  · rfl
  · rfl

theorem WellFormed.consText {pieces : List PathPart} (h : WellFormed pieces) (c : Char) :
    WellFormed (consText c pieces) := by
  cases h with
  | nil => exact .text (by simp) .nil
  | token hkey hrest => exact .text (by simp) (.token hkey hrest)
  | text hnext hrest => exact .text hnext hrest

/-- No character of a path is lost. -/
@[simp] theorem flatMap_parts (cs : List Char) : (parts cs).flatMap PathPart.chars = cs := by
  fun_induction parts cs with
  | case1 => rfl
  | case2 rest key after htoken ih =>
      have hrest := (of_tokenAfterBrace? htoken).2
      simp [PathPart.chars, ih, hrest]
  | case3 rest htoken ih => rw [flatMap_consText, ih]
  | case4 c rest hc ih => rw [flatMap_consText, ih]

theorem wellFormed_parts (cs : List Char) : WellFormed (parts cs) := by
  fun_induction parts cs with
  | case1 => exact .nil
  | case2 rest key after htoken ih => exact .token (of_tokenAfterBrace? htoken).1 ih
  | case3 rest htoken ih => exact ih.consText '{'
  | case4 c rest hc ih => exact ih.consText c

end PathTemplate

/-! ## Values in the place of tokens -/

/-- A part of a path with a token replaced by the value of its key. -/
def PathPart.filled (value : String → String) : PathPart → List Char
  | .text cs => cs
  | .token key => (value (String.ofList key)).toList

namespace PathToken

/-- The text between two byte offsets. -/
def slice (text : String) (start stop : Nat) : String :=
  String.Pos.Raw.extract text ⟨start⟩ ⟨stop⟩

/-- A path from the byte offset `cursor` on, with the spans of the tokens replaced by the values of
their keys. -/
def fillFrom (value : String → String) (path : String) (cursor : Nat) : List PathToken → String
  | [] => slice path cursor path.utf8ByteSize
  | token :: rest =>
    slice path cursor token.start ++ value token.key ++ fillFrom value path token.stop rest

/-- A path with its tokens replaced by the values of their keys. -/
def fill (value : String → String) (path : String) : String :=
  fillFrom value path 0 (scan path)

theorem slice_append (front middle back : List Char) :
    slice (String.ofList (front ++ middle ++ back)) (byteLength front)
      (byteLength (front ++ middle)) = String.ofList middle := by
  have hextract := String.extract_of_valid front middle back
  rw [byteLength_append, byteLength_eq_utf8ByteSize, byteLength_eq_utf8ByteSize,
    String.utf8ByteSize_ofList, String.utf8ByteSize_ofList]
  exact hextract

/-- What stands between the cursor and the first token is kept.  It is `pending`: literal text
behind the last token that has been replaced. -/
theorem fillFrom_ofParts (value : String → String) (front pending : List Char)
    (pieces : List PathPart) :
    fillFrom value (String.ofList (front ++ pending ++ pieces.flatMap PathPart.chars))
        (byteLength front) (ofParts (byteLength (front ++ pending)) pieces) =
      String.ofList (pending ++ pieces.flatMap (PathPart.filled value)) := by
  induction pieces generalizing front pending with
  | nil =>
      have hslice := slice_append front pending []
      rw [List.append_nil, byteLength_eq_utf8ByteSize (front ++ pending)] at hslice
      simpa [ofParts, fillFrom] using hslice
  | cons piece pieces ih =>
      cases piece with
      | text cs =>
          have hrest := ih front (pending ++ cs)
          rw [ofParts, ← byteLength_append]
          simpa [PathPart.chars, PathPart.filled, List.append_assoc] using hrest
      | token key =>
          have hrest := ih (front ++ pending ++ PathPart.chars (.token key)) []
          have hslice := slice_append front pending
            (PathPart.chars (.token key) ++ pieces.flatMap PathPart.chars)
          simp only [List.append_nil, List.append_assoc, List.nil_append, byteLength_append] at hrest
          simp only [byteLength_append, List.append_assoc] at hslice
          simp only [ofParts, fillFrom, List.flatMap_cons, byteLength_append, List.append_assoc,
            hslice, Nat.add_assoc] at hrest ⊢
          rw [hrest]
          simp [PathPart.filled, String.append_assoc]

/-- A path with its tokens replaced is its literal text and the values, in order. -/
theorem fill_eq (value : String → String) (path : String) :
    (fill value path).toList =
      (PathTemplate.parts path.toList).flatMap (PathPart.filled value) := by
  have hfill := fillFrom_ofParts value [] [] (PathTemplate.parts path.toList)
  simp only [List.nil_append, PathTemplate.flatMap_parts, String.ofList_toList] at hfill
  rw [fill, scan]
  exact (congrArg String.toList hfill).trans String.toList_ofList

end PathToken

end ClientLoom
