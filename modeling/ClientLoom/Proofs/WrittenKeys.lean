import ClientLoom.Proofs.PathTokens
import ClientLoom.Proofs.StringLiterals

/-!
# Keys as they are written

A string literal ends at the first quote that is not escaped, and that is its last character.  A key
is written bare if it is an identifier and as a string literal elsewhere.  The two forms differ in
their first character, so a key can be read from the front of a code, as long as no identifier
character follows it.  Different keys are therefore written differently, and so are reads of
different properties.
-/

namespace ClientLoom

open Text (escapeQuoted literalChars stringLiteral objectKey propertyRead isIdentifier
  isIdentifierChar)

/-! ## The end of a string literal -/

namespace StringLiteral

/-- A character behind these is escaped: in front of it stands a backslash that is not escaped
itself. -/
def escapes (front : List Char) : Bool :=
  front.foldl (fun escaped c => c == '\\' && !escaped) false

/-- The code is one literal as a whole: it has quotes at both ends, it stands on one line, and of
the quotes behind the first one just the last character is not escaped. -/
structure Complete (code : List Char) : Prop where
  quoted : ∃ body, code = '\'' :: (body ++ ['\''])
  line_feed : '\n' ∉ code
  carriage_return : '\r' ∉ code
  closed : ∀ front behind, code = '\'' :: (front ++ '\'' :: behind) →
    (escapes front = false ↔ behind = [])

/-- A character is written as itself, or as a backslash and a character behind it. -/
theorem escapeQuoted_cases (c : Char) :
    (escapeQuoted c = [c] ∧ c ≠ '\\' ∧ c ≠ '\'' ∧ c ≠ '\n' ∧ c ≠ '\r') ∨
      ∃ d, escapeQuoted c = ['\\', d] ∧ d ≠ '\n' ∧ d ≠ '\r' := by
  unfold escapeQuoted
  split_ifs with hescape hquote hfeed hreturn
  · exact .inr ⟨_, rfl, by decide, by decide⟩
  · exact .inr ⟨_, rfl, by decide, by decide⟩
  · exact .inr ⟨_, rfl, by decide, by decide⟩
  · exact .inr ⟨_, rfl, by decide, by decide⟩
  · exact .inl ⟨rfl, hescape, hquote, hfeed, hreturn⟩

theorem escapes_plain {c : Char} (h : c ≠ '\\') (front : List Char) :
    escapes (c :: front) = escapes front := by
  have hc : (c == '\\') = false := by simpa using h
  simp [escapes, hc]

@[simp] theorem escapes_pair (d : Char) (front : List Char) :
    escapes ('\\' :: d :: front) = escapes front := by
  simp [escapes]

/-- No escape is open behind the characters of a text. -/
@[simp] theorem escapes_flatMap (value : List Char) :
    escapes (value.flatMap escapeQuoted) = false := by
  induction value with
  | nil => rfl
  | cons c value ih =>
      rw [List.flatMap_cons]
      rcases escapeQuoted_cases c with ⟨hself, hescape, -⟩ | ⟨d, hpair, -⟩
      · rw [hself, List.singleton_append, escapes_plain hescape, ih]
      · rw [hpair, List.cons_append, List.singleton_append, escapes_pair, ih]

/-- Every quote among the characters of a text is escaped. -/
theorem escapes_front {value front behind : List Char}
    (h : value.flatMap escapeQuoted = front ++ '\'' :: behind) : escapes front = true := by
  induction value generalizing front with
  | nil => simp at h
  | cons c value ih =>
      rw [List.flatMap_cons] at h
      rcases escapeQuoted_cases c with ⟨hself, hescape, hquote, -⟩ | ⟨d, hpair, -⟩
      · rw [hself, List.singleton_append] at h
        cases front with
        | nil => exact absurd (List.cons.inj h).1 hquote
        | cons e front =>
            obtain ⟨rfl, hrest⟩ := List.cons.inj h
            rw [escapes_plain hescape, ih hrest]
      · -- The quote is the character behind the backslash, or it stands further behind.
        rw [hpair, List.cons_append, List.singleton_append] at h
        match front with
        | [] => exact absurd (List.cons.inj h).1 (by decide)
        | [e] =>
            obtain ⟨rfl, -⟩ := List.cons.inj h
            rfl
        | e :: e' :: front =>
            obtain ⟨rfl, hrest⟩ := List.cons.inj h
            rw [escapes_pair, ih (List.cons.inj hrest).2]

theorem lineBreak_not_mem_flatMap (value : List Char) :
    '\n' ∉ value.flatMap escapeQuoted ∧ '\r' ∉ value.flatMap escapeQuoted := by
  have hchar : ∀ c, '\n' ∉ escapeQuoted c ∧ '\r' ∉ escapeQuoted c := by
    intro c
    rcases escapeQuoted_cases c with ⟨hself, -, -, hfeed, hreturn⟩ | ⟨d, hpair, hfeed, hreturn⟩
    · rw [hself]
      simp [hfeed.symm, hreturn.symm]
    · rw [hpair]
      simp [hfeed.symm, hreturn.symm]
  simp only [List.mem_flatMap, not_exists, not_and]
  exact ⟨fun c _ => (hchar c).1, fun c _ => (hchar c).2⟩

theorem complete_stringLiteral (value : String) : Complete (stringLiteral value).toList := by
  have hcode : (stringLiteral value).toList =
      '\'' :: (value.toList.flatMap escapeQuoted ++ ['\'']) := by
    rw [stringLiteral, String.toList_ofList, literalChars]
  obtain ⟨hfeed, hreturn⟩ := lineBreak_not_mem_flatMap value.toList
  refine ⟨⟨_, hcode⟩, ?_, ?_, fun front behind h => ?_⟩
  · simpa [hcode] using hfeed
  · simpa [hcode] using hreturn
  · have hbody := (List.cons.inj (hcode.symm.trans h)).2
    rcases List.eq_nil_or_concat behind with rfl | ⟨inside, last, rfl⟩
    · have hfront := (List.append_inj_left' hbody rfl).symm
      rw [hfront]
      simpa using escapes_flatMap value.toList
    · -- A quote in front of the last one belongs to the text.
      have hinside : value.toList.flatMap escapeQuoted ++ ['\''] =
          (front ++ '\'' :: inside) ++ [last] := by
        simpa using hbody
      rw [escapes_front (List.append_inj_left' hinside rfl)]
      simp

end StringLiteral

/-! ## Reading a key -/

namespace ObjectKey

/-- The key at the front of a code, and what follows it: the text of a string literal, or the
characters up to the first one that no identifier has. -/
def read? : List Char → Option (List Char × List Char)
  | '\'' :: rest => StringLiteral.body? rest
  | code => some (code.takeWhile isIdentifierChar, code.dropWhile isIdentifierChar)

/-- A key is read from what it is written as. -/
theorem read?_objectKey (key : String) {behind : List Char}
    (h : ∀ c ∈ behind.head?, isIdentifierChar c = false) :
    read? ((objectKey key).toList ++ behind) = some (key.toList, behind) := by
  unfold objectKey
  split_ifs with hkey
  · have hchars := Text.all_of_isIdentifierChars hkey
    have hspan : (key.toList ++ behind).takeWhile isIdentifierChar = key.toList ∧
        (key.toList ++ behind).dropWhile isIdentifierChar = behind := by
      cases behind with
      | nil =>
          rw [List.takeWhile_append_of_pos hchars, List.dropWhile_append_of_pos hchars]
          simp
      | cons c rest => exact Text.span_identifier hchars (h c rfl) rest
    have hquote : ∀ rest, key.toList ++ behind ≠ '\'' :: rest := by
      intro rest hrest
      cases hname : key.toList with
      | nil =>
          rw [isIdentifier, hname] at hkey
          cases hkey
      | cons c name =>
          rw [hname] at hchars hrest
          have hc := hchars c List.mem_cons_self
          rw [(List.cons.inj hrest).1] at hc
          exact absurd hc (by decide)
    rw [read?, hspan.1, hspan.2]
    exact hquote
  · rw [← StringLiteral.denotes_stringLiteral key behind, stringLiteral, String.toList_ofList,
      literalChars]
    rfl

/-- Where two codes begin with keys, the keys are the same, and so is what follows them. -/
theorem objectKey_append_inj {key key' : String} {behind behind' : List Char}
    (h : ∀ c ∈ behind.head?, isIdentifierChar c = false)
    (h' : ∀ c ∈ behind'.head?, isIdentifierChar c = false)
    (heq : (objectKey key).toList ++ behind = (objectKey key').toList ++ behind') :
    key = key' ∧ behind = behind' := by
  have hread := read?_objectKey key h
  rw [heq, read?_objectKey key' h'] at hread
  obtain ⟨hkey, hbehind⟩ := Prod.mk.inj (Option.some.inj hread)
  exact ⟨String.toList_inj.1 hkey.symm, hbehind.symm⟩

theorem objectKey_injective : Function.Injective objectKey := by
  intro key key' h
  have hchars : (objectKey key).toList ++ [] = (objectKey key').toList ++ [] := by rw [h]
  exact (objectKey_append_inj (by simp) (by simp) hchars).1

theorem propertyRead_injective (target : String) : Function.Injective (propertyRead target) := by
  intro key key' h
  have hchars := congrArg String.toList h
  unfold propertyRead at hchars
  split_ifs at hchars with hkey hkey' hkey'
  · exact String.toList_inj.1 (by simpa using hchars)
  · simp at hchars
  · simp at hchars
  · have hliteral : (stringLiteral key).toList = (stringLiteral key').toList := by
      simpa using hchars
    exact StringLiteral.stringLiteral_injective (String.toList_inj.1 hliteral)

/-- The literal of a text is one complete literal, and it reads back as the text, whatever stands
behind it.  Whatever the target, different keys give different codes, in an object and in a read,
and so does in particular a key that is an identifier beside one that is quoted. -/
theorem literals_and_keys_faithful (target : String) :
    (∀ value : String, StringLiteral.Complete (stringLiteral value).toList ∧
      StringLiteral.Denotes (stringLiteral value) value) ∧
    Function.Injective objectKey ∧
    Function.Injective (propertyRead target) ∧
    ∀ bare quoted : String, isIdentifier bare = true → isIdentifier quoted = false →
      objectKey bare ≠ objectKey quoted ∧
        propertyRead target bare ≠ propertyRead target quoted := by
  refine ⟨fun value => ?_, objectKey_injective, propertyRead_injective target, ?_⟩
  · exact ⟨StringLiteral.complete_stringLiteral value, StringLiteral.denotes_stringLiteral value⟩
  · intro bare quoted hbare hquoted
    have hne : bare ≠ quoted := by
      rintro rfl
      rw [hbare] at hquoted
      cases hquoted
    exact ⟨objectKey_injective.ne hne, (propertyRead_injective target).ne hne⟩

end ObjectKey

end ClientLoom
