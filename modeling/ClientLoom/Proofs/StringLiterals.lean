import ClientLoom.Tag
import ClientLoom.Text.Literal
import Mathlib.Tactic.SplitIfs

/-!
# Reading string literals

A single-quoted literal is read from left to right: a backslash and the character behind it stand for
one character, a quote that is not escaped ends the literal, a raw line break is not allowed, and any
other character stands for itself.  The literal of a text reads as the text, whatever stands behind
it.  So no literal is the beginning of another one, and different texts have different literals.
-/

namespace ClientLoom

open Text (escapeQuoted literalChars stringLiteral)

namespace StringLiteral

/-- What a backslash in front of a character stands for.  Escapes by a code are not read, and a line
may not go on behind a backslash. -/
def unescape? (c : Char) : Option Char :=
  if c = 'n' then some '\n'
  else if c = 'r' then some '\r'
  else if c = 't' then some '\t'
  else if c = 'b' then some '\x08'
  else if c = 'f' then some '\x0c'
  else if c = 'v' then some '\x0b'
  else if c = 'x' ∨ c = 'u' ∨ c.isDigit ∨ isLineBreak c then none
  else some c

/-- Puts a character in front of those that have been read. -/
def prepend (c : Char) (read : List Char × List Char) : List Char × List Char :=
  (c :: read.1, read.2)

/-- The text of a literal behind its opening quote, and what follows the closing quote. -/
def body? : List Char → Option (List Char × List Char)
  | [] => none
  | '\'' :: rest => some ([], rest)
  | ['\\'] => none
  | '\\' :: c :: rest => (unescape? c).bind fun value => (body? rest).map (prepend value)
  | c :: rest => if c = '\n' ∨ c = '\r' then none else (body? rest).map (prepend c)

/-- The text of the literal at the front of a code, and what follows the literal. -/
def read? : List Char → Option (List Char × List Char)
  | '\'' :: rest => body? rest
  | _ => none

/-- The code is one literal of the text: whatever stands behind it, it is read as the text, up to its
end. -/
def Denotes (code text : String) : Prop :=
  ∀ behind : List Char, read? (code.toList ++ behind) = some (text.toList, behind)

/-- Reading goes forward. -/
theorem length_of_body? {cs value after : List Char} (h : body? cs = some (value, after)) :
    after.length ≤ cs.length := by
  fun_induction body? cs generalizing value with
  | case1 => cases h
  | case2 rest =>
      obtain ⟨-, rfl⟩ := Prod.mk.inj (Option.some.inj h)
      exact Nat.le_succ _
  | case3 => cases h
  | case4 c rest ih =>
      obtain ⟨escaped, -, h⟩ := Option.bind_eq_some_iff.1 h
      obtain ⟨read, hread, hprepend⟩ := Option.map_eq_some_iff.1 h
      obtain ⟨-, rfl⟩ := Prod.mk.inj hprepend
      exact Nat.le_succ_of_le (Nat.le_succ_of_le (ih hread))
  | case5 => cases h
  | case6 c rest _ _ _ _ ih =>
      obtain ⟨read, hread, hprepend⟩ := Option.map_eq_some_iff.1 h
      obtain ⟨-, rfl⟩ := Prod.mk.inj hprepend
      exact Nat.le_succ_of_le (ih hread)

theorem length_of_read? {cs value after : List Char} (h : read? cs = some (value, after)) :
    after.length ≤ cs.length := by
  unfold read? at h
  split at h
  · exact Nat.le_succ_of_le (length_of_body? h)
  · cases h

theorem body?_plain {c : Char} {rest : List Char} (hquote : c ≠ '\'') (hescape : c ≠ '\\')
    (hline : ¬ (c = '\n' ∨ c = '\r')) : body? (c :: rest) = (body? rest).map (prepend c) := by
  rw [body?, if_neg hline]
  · exact hquote
  · exact fun hc _ => hescape hc
  · exact fun _ _ hc _ => hescape hc

/-- A character is read from what it is written as. -/
@[simp] theorem body?_escapeQuoted (c : Char) (rest : List Char) :
    body? (escapeQuoted c ++ rest) = (body? rest).map (prepend c) := by
  unfold escapeQuoted
  split_ifs with hescape hquote hfeed hreturn
  · rw [hescape]
    rfl
  · rw [hquote]
    rfl
  · rw [hfeed]
    rfl
  · rw [hreturn]
    rfl
  · exact body?_plain hquote hescape (not_or.2 ⟨hfeed, hreturn⟩)

@[simp] theorem body?_flatMap (value behind : List Char) :
    body? (value.flatMap escapeQuoted ++ '\'' :: behind) = some (value, behind) := by
  induction value with
  | nil => rw [List.flatMap_nil, List.nil_append, body?]
  | cons c value ih =>
      rw [List.flatMap_cons, List.append_assoc, body?_escapeQuoted, ih]
      rfl

theorem denotes_stringLiteral (text : String) : Denotes (stringLiteral text) text := by
  intro behind
  have hcode : (stringLiteral text).toList ++ behind =
      '\'' :: (text.toList.flatMap escapeQuoted ++ '\'' :: behind) := by
    simp [stringLiteral, literalChars]
  rw [hcode, read?, body?_flatMap]

/-- No literal is the beginning of a code that starts with a literal of another text. -/
theorem Denotes.eq_of_begins {code text code' text' : String} (h : Denotes code text)
    (h' : Denotes code' text') {behind : List Char}
    (hbegins : code.toList <+: code'.toList ++ behind) : text = text' := by
  obtain ⟨rest, hrest⟩ := hbegins
  have hread := h rest
  rw [hrest, h' behind] at hread
  exact String.toList_inj.1 (congrArg Prod.fst (Option.some.inj hread)).symm

theorem stringLiteral_injective : Function.Injective stringLiteral := by
  intro text text' h
  have hdenotes' : Denotes (stringLiteral text) text' := by
    rw [h]
    exact denotes_stringLiteral text'
  exact (denotes_stringLiteral text).eq_of_begins hdenotes' (List.prefix_append _ [])

end StringLiteral

end ClientLoom
