import ClientLoom.Proofs.PathTokens

/-!
# Where the tokens of a path stand

A scan of a path goes on behind a token that it has found, and one character further where a brace
opens none.  It passes over no occurrence of an identifier between braces: inside a token there is
no second opening brace.  So the tokens of a path are exactly these occurrences, from left to right,
each with the bytes between which it stands.
-/

namespace ClientLoom

open Text (isIdentifier isIdentifierChars)

namespace PathTemplate

/-- An identifier in front of a closing brace is a token. -/
theorem tokenAfterBrace?_eq {key : List Char} (hkey : isIdentifierChars key = true)
    (after : List Char) : tokenAfterBrace? (key ++ '}' :: after) = some (key, after) := by
  cases key with
  | nil => cases hkey
  | cons c rest =>
      rw [isIdentifierChars, Bool.and_eq_true, List.all_eq_true] at hkey
      obtain ⟨hstart, hrest⟩ := hkey
      obtain ⟨htake, hdrop⟩ := Text.span_identifier hrest (c := '}') (by decide) after
      rw [List.cons_append, tokenAfterBrace?, if_pos hstart, hdrop, htake]
      rfl

/-- What stands in front of a brace behind a token has the whole token in it. -/
theorem exists_behind_token {key after front behind : List Char}
    (hkey : isIdentifierChars key = true) (h : key ++ '}' :: after = front ++ '{' :: behind) :
    ∃ rest, front = key ++ '}' :: rest ∧ after = rest ++ '{' :: behind := by
  have hnot : '{' ∉ key ++ ['}'] := by
    intro hmem
    rcases List.mem_append.1 hmem with hmem | hmem
    · exact absurd (Text.all_of_isIdentifierChars hkey _ hmem) (by decide)
    · simp at hmem
  have hsplit : (key ++ ['}']) ++ after = front ++ '{' :: behind := by simpa using h
  rcases List.append_eq_append_iff.1 hsplit with ⟨rest, hfront, hafter⟩ | ⟨rest, hkeyed, hbehind⟩
  · exact ⟨rest, by simpa using hfront, hafter⟩
  · cases rest with
    | nil => exact ⟨[], by simpa using hkeyed.symm, by simpa using hbehind.symm⟩
    | cons c rest =>
        obtain ⟨rfl, -⟩ := List.cons.inj hbehind
        exact absurd (by simp [hkeyed]) hnot

end PathTemplate

namespace PathToken

/-- The token of an identifier between braces, with the text in front of it. -/
def placed (front key : List Char) : PathToken :=
  ⟨String.ofList key, byteLength front, byteLength (front ++ PathPart.chars (.token key))⟩

theorem ofParts_consText (before : List Char) (c : Char) (pieces : List PathPart) :
    ofParts (byteLength before) (PathTemplate.consText c pieces) =
      ofParts (byteLength (before ++ [c])) pieces := by
  rw [byteLength_append]
  unfold PathTemplate.consText
  split
  · rw [ofParts, ofParts, byteLength_cons, Nat.add_assoc]
    rfl
  · rw [ofParts]

/-- Every token among parts is an identifier between braces. -/
theorem exists_of_mem_ofParts {pieces : List PathPart} (hpieces : PathTemplate.WellFormed pieces)
    (before : List Char) {token : PathToken} (h : token ∈ ofParts (byteLength before) pieces) :
    ∃ front key back, pieces.flatMap PathPart.chars = front ++ PathPart.chars (.token key) ++ back ∧
      isIdentifierChars key = true ∧ token = placed (before ++ front) key := by
  induction hpieces generalizing before with
  | nil => cases h
  | @text cs rest hnext hrest ih =>
      rw [ofParts, ← byteLength_append] at h
      obtain ⟨front, key, back, hchars, hkey, rfl⟩ := ih (before ++ cs) h
      refine ⟨cs ++ front, key, back, ?_, hkey, ?_⟩
      · rw [List.flatMap_cons, hchars]
        simp [PathPart.chars]
      · rw [List.append_assoc]
  | @token key rest hkey hrest ih =>
      rw [ofParts, ← byteLength_append] at h
      rcases List.mem_cons.1 h with rfl | h
      · refine ⟨[], key, rest.flatMap PathPart.chars, by simp, hkey, ?_⟩
        rw [placed, List.append_nil]
      · obtain ⟨front, key', back, hchars, hkey', rfl⟩ := ih _ h
        refine ⟨PathPart.chars (.token key) ++ front, key', back, ?_, hkey', ?_⟩
        · rw [List.flatMap_cons, hchars]
          simp
        · rw [List.append_assoc]

/-- Every identifier between braces is a token: what a scan jumps over has no opening brace but the
first one. -/
theorem placed_mem_ofParts {cs front key back : List Char}
    (h : cs = front ++ '{' :: (key ++ '}' :: back)) (hkey : isIdentifierChars key = true)
    (before : List Char) :
    placed (before ++ front) key ∈ ofParts (byteLength before) (PathTemplate.parts cs) := by
  fun_induction PathTemplate.parts cs generalizing front before with
  | case1 => simp at h
  | case2 rest found after htoken ih =>
      obtain ⟨hfound, rfl⟩ := PathTemplate.of_tokenAfterBrace? htoken
      rw [ofParts, ← byteLength_append]
      cases front with
      | nil =>
          obtain ⟨-, hrest⟩ := List.cons.inj h
          rw [hrest, PathTemplate.tokenAfterBrace?_eq hkey] at htoken
          obtain ⟨rfl, rfl⟩ := Prod.mk.inj (Option.some.inj htoken)
          rw [List.append_nil, placed]
          exact List.mem_cons_self
      | cons c front =>
          obtain ⟨rfl, hrest⟩ := List.cons.inj h
          obtain ⟨more, rfl, hafter⟩ := PathTemplate.exists_behind_token hfound hrest
          have hmem := ih hafter (before ++ PathPart.chars (.token found))
          refine List.mem_cons_of_mem _ ?_
          simpa [PathPart.chars] using hmem
  | case3 rest hnone ih =>
      rw [ofParts_consText]
      cases front with
      | nil =>
          obtain ⟨-, rfl⟩ := List.cons.inj h
          rw [PathTemplate.tokenAfterBrace?_eq hkey] at hnone
          cases hnone
      | cons c front =>
          obtain ⟨rfl, hrest⟩ := List.cons.inj h
          have hmem := ih hrest (before ++ ['{'])
          simpa using hmem
  | case4 c rest hc ih =>
      rw [ofParts_consText]
      cases front with
      | nil => exact absurd (List.cons.inj h).1 hc
      | cons c' front =>
          obtain ⟨rfl, hrest⟩ := List.cons.inj h
          have hmem := ih hrest (before ++ [c])
          simpa using hmem

/-- Tokens come one after the other, and none is empty. -/
theorem ofParts_ordered (offset : Nat) (pieces : List PathPart) :
    (ofParts offset pieces).Pairwise (fun token later => token.stop ≤ later.start) ∧
      ∀ token ∈ ofParts offset pieces, offset ≤ token.start ∧ token.start < token.stop := by
  induction pieces generalizing offset with
  | nil => simp [ofParts]
  | cons piece pieces ih =>
      cases piece with
      | text cs =>
          obtain ⟨hordered, hbounds⟩ := ih (offset + byteLength cs)
          refine ⟨hordered, fun token htoken => ?_⟩
          obtain ⟨hstart, hstop⟩ := hbounds token htoken
          omega
      | token key =>
          have hsize : 0 < byteLength (PathPart.chars (.token key)) := by
            rw [PathPart.chars, byteLength_cons]
            have := ('{').utf8Size_pos
            omega
          obtain ⟨hordered, hbounds⟩ := ih (offset + byteLength (PathPart.chars (.token key)))
          rw [ofParts, List.pairwise_cons, List.forall_mem_cons]
          refine ⟨⟨fun later hlater => (hbounds later hlater).1, hordered⟩,
            ⟨le_rfl, Nat.lt_add_of_pos_right hsize⟩, ?_⟩
          intro token htoken
          obtain ⟨hstart, hstop⟩ := hbounds token htoken
          omega

/-- The token is an identifier between braces somewhere in the path, with the numbers of bytes in
front of it and up to its end. -/
def OccursIn (token : PathToken) (path : String) : Prop :=
  ∃ front back : String, path = front ++ "\x7b" ++ token.key ++ "\x7d" ++ back ∧
    isIdentifier token.key = true ∧ token.start = front.utf8ByteSize ∧
    token.stop = (front ++ "\x7b" ++ token.key ++ "\x7d").utf8ByteSize

theorem occursIn_iff {token : PathToken} {path : String} :
    token.OccursIn path ↔ ∃ front key back,
      path.toList = front ++ PathPart.chars (.token key) ++ back ∧
        isIdentifierChars key = true ∧ token = placed front key := by
  constructor
  · rintro ⟨front, back, rfl, hkey, hstart, hstop⟩
    refine ⟨front.toList, token.key.toList, back.toList, by simp [PathPart.chars], hkey, ?_⟩
    obtain ⟨key, start, stop⟩ := token
    simp only [placed, byteLength_eq_utf8ByteSize, String.ofList_toList, mk.injEq, true_and] at *
    refine ⟨hstart, hstop.trans (congrArg String.utf8ByteSize (String.toList_inj.1 ?_))⟩
    simp [PathPart.chars]
  · rintro ⟨front, key, back, hpath, hkey, rfl⟩
    refine ⟨String.ofList front, String.ofList back, String.toList_inj.1 ?_, ?_, ?_, ?_⟩
    · rw [hpath]
      simp [placed, PathPart.chars]
    · simpa [placed, isIdentifier] using hkey
    · exact byteLength_eq_utf8ByteSize front
    · refine (byteLength_eq_utf8ByteSize _).trans (congrArg String.utf8ByteSize ?_)
      exact String.toList_inj.1 (by simp [placed, PathPart.chars])

@[simp] theorem mem_scan_iff {token : PathToken} {path : String} :
    token ∈ scan path ↔ token.OccursIn path := by
  rw [occursIn_iff, scan]
  constructor
  · intro h
    obtain ⟨front, key, back, hchars, hkey, htoken⟩ :=
      exists_of_mem_ofParts (PathTemplate.wellFormed_parts path.toList) [] h
    rw [PathTemplate.flatMap_parts] at hchars
    exact ⟨front, key, back, hchars, hkey, htoken⟩
  · rintro ⟨front, key, back, hpath, hkey, rfl⟩
    exact placed_mem_ofParts (by simpa [PathPart.chars] using hpath) hkey []

/-- The text between the bytes of a token is the token. -/
theorem slice_of_occursIn {token : PathToken} {path : String} (h : token.OccursIn path) :
    slice path token.start token.stop = "\x7b" ++ token.key ++ "\x7d" := by
  obtain ⟨front, key, back, hpath, -, rfl⟩ := occursIn_iff.1 h
  have hslice := slice_append front (PathPart.chars (.token key)) back
  rw [← hpath, String.ofList_toList] at hslice
  rw [placed, hslice]
  exact String.toList_inj.1 (by simp [PathPart.chars])

/-- The tokens of a path are exactly the identifiers between braces in it, each once and from left
to right, with byte offsets that do not overlap.  The text between the offsets of a token is its key
between braces, and a path with that text in the place of every token is the path again. -/
theorem scan_occurrences (path : String) :
    (∀ token : PathToken, token ∈ scan path ↔ token.OccursIn path) ∧
    (scan path).Pairwise (fun token later =>
      token.start < later.start ∧ token.stop ≤ later.start) ∧
    (∀ token ∈ scan path,
      slice path token.start token.stop = "\x7b" ++ token.key ++ "\x7d") ∧
    fill (fun key => "\x7b" ++ key ++ "\x7d") path = path := by
  obtain ⟨hordered, hbounds⟩ := ofParts_ordered 0 (PathTemplate.parts path.toList)
  refine ⟨fun token => mem_scan_iff, ?_, fun token htoken => ?_, ?_⟩
  · refine hordered.imp_of_mem fun {token later} htoken _ hstop => ⟨?_, hstop⟩
    have hpositive := (hbounds token htoken).2
    omega
  · exact slice_of_occursIn (mem_scan_iff.1 htoken)
  · have hfilled : PathPart.filled (fun key => "\x7b" ++ key ++ "\x7d") = PathPart.chars := by
      funext piece
      cases piece with
      | text cs => rfl
      | token key => simp [PathPart.filled, PathPart.chars]
    refine String.toList_inj.1 ?_
    rw [fill_eq, hfilled, PathTemplate.flatMap_parts]

example : (scan "/ü\x7b\x7bid\x7d\x7d\x7ba b\x7d\x7b").map
    (fun token => (token.key, token.start, token.stop)) = [("id", 4, 8)] := by
  decide +kernel

end PathToken

end ClientLoom
