import ClientLoom.Proofs.PathTokens

/-!
# Letters of converted names

Which letters camel case and Pascal case can begin with, that separators are gone from them, and
that they make identifier characters of identifier characters.  All rest on the tables of letter
case: a character that no entry of a table gives is the image of no character but itself.
-/

namespace ClientLoom.Text

/-! ## Images of letter case -/

theorem caseMap_ne_nil {runs : List Run} {long : List (Nat × List Nat)}
    (hlong : ∀ entry ∈ long, entry.2 ≠ []) (c : Char) : caseMap runs long c ≠ [] := by
  rw [caseMap]
  split
  · rename_i key image hfind
    simpa using hlong _ (List.mem_of_find?_eq_some hfind)
  · split
    · exact List.cons_ne_nil _ _
    · exact List.cons_ne_nil _ _

/-- A character that no entry of the tables gives is the image of itself only. -/
theorem eq_of_mem_caseMap {runs : List Run} {long : List (Nat × List Nat)} {c d : Char}
    (hzero : d.toNat ≠ 0) (hlong : ∀ entry ∈ long, d ∉ entry.2.map Char.ofNat)
    (hruns : ∀ r ∈ runs, r.covers (d.toNat - r.shift).toNat = false)
    (h : d ∈ caseMap runs long c) : c = d ∧ caseMap runs long c = [c] := by
  unfold caseMap at h ⊢
  split at h
  · rename_i key image hfind
    exact absurd h (hlong _ (List.mem_of_find?_eq_some hfind))
  · split at h
    · rename_i r hfind
      exfalso
      have himage : (c.toNat + r.shift).toNat = d.toNat := by
        have hcode := congrArg Char.toNat (List.mem_singleton.1 h)
        by_cases hvalid : (c.toNat + r.shift).toNat.isValidChar
        · rw [Char.ofNat, dif_pos hvalid] at hcode
          exact hcode.symm
        · rw [Char.ofNat, dif_neg hvalid] at hcode
          exact absurd hcode hzero
      have hsource : (d.toNat - r.shift).toNat = c.toNat := by omega
      have hcovers := List.find?_some hfind
      have hfree := hruns r (List.mem_of_find?_eq_some hfind)
      rw [hsource] at hfree
      simp [hfree] at hcovers
    · obtain rfl := List.mem_singleton.1 h
      exact ⟨rfl, rfl⟩

theorem upper_ne_nil (c : Char) : upper c ≠ [] :=
  caseMap_ne_nil (by decide) c

theorem lower_ne_nil (c : Char) : lower c ≠ [] :=
  caseMap_ne_nil (by decide) c

/-- `q` has an upper case itself, and is the upper case of nothing. -/
theorem q_not_mem_upper (c : Char) : 'q' ∉ upper c := by
  intro h
  obtain ⟨rfl, hself⟩ := eq_of_mem_caseMap (by decide) (by decide) (by decide +kernel) h
  exact absurd hself (by decide)

/-- `T` has a lower case itself, and is the lower case of nothing. -/
theorem T_not_mem_lower (c : Char) : 'T' ∉ lower c := by
  intro h
  obtain ⟨rfl, hself⟩ := eq_of_mem_caseMap (by decide) (by decide) (by decide +kernel) h
  exact absurd hself (by decide)

theorem eq_of_underscore_mem_upper {c : Char} (h : '_' ∈ upper c) : c = '_' :=
  (eq_of_mem_caseMap (by decide) (by decide) (by decide +kernel) h).1

theorem eq_of_underscore_mem_lower {c : Char} (h : '_' ∈ lower c) : c = '_' :=
  (eq_of_mem_caseMap (by decide) (by decide) (by decide +kernel) h).1

/-! ## First letters -/

@[simp] theorem toList_pascalCase (name : String) :
    (pascalCase name).toList = pascalChars name.toList := by
  rw [pascalCase, String.toList_ofList]

/-- Camel case begins with the lower case of a character that separates no words. -/
theorem camelChars_cases (cs : List Char) :
    camelChars cs = [] ∨
      ∃ c rest, isSeparator c = false ∧ camelChars cs = lower c ++ rest := by
  induction cs with
  | nil => exact .inl rfl
  | cons c cs ih =>
      rw [camelChars]
      split
      · exact ih
      · rename_i hc
        exact .inr ⟨c, camelRest false cs, by simpa using hc, rfl⟩

/-- Pascal case begins with the upper case of what camel case begins with. -/
theorem pascalChars_cases (cs : List Char) :
    pascalChars cs = [] ∨
      ∃ c d rest, isSeparator c = false ∧ d ∈ lower c ∧ pascalChars cs = upper d ++ rest := by
  rw [pascalChars]
  rcases camelChars_cases cs with hnil | ⟨c, rest, hc, hcamel⟩
  · rw [hnil]
    exact .inl rfl
  · cases hlower : lower c with
    | nil => exact absurd hlower (lower_ne_nil c)
    | cons d more =>
        have hd : d ∈ lower c := by
          rw [hlower]
          exact List.mem_cons_self
        rw [hcamel, hlower]
        exact .inr ⟨c, d, more ++ rest, hc, hd, rfl⟩

theorem head?_append_mem {α : Type} {front back : List α} {a : α} (hne : front ≠ [])
    (h : (front ++ back).head? = some a) : a ∈ front := by
  rw [List.head?_append_of_ne_nil _ hne] at h
  exact List.mem_of_mem_head? h

theorem head?_camelChars_ne (cs : List Char) : (camelChars cs).head? ≠ some 'T' := by
  intro h
  rcases camelChars_cases cs with hnil | ⟨c, rest, -, hcamel⟩
  · simp [hnil] at h
  · rw [hcamel] at h
    exact T_not_mem_lower c (head?_append_mem (lower_ne_nil c) h)

theorem head?_pascalChars_ne (cs : List Char) :
    (pascalChars cs).head? ≠ some 'q' ∧ (pascalChars cs).head? ≠ some '_' := by
  rcases pascalChars_cases cs with hnil | ⟨c, d, rest, hc, hd, hpascal⟩
  · simp [hnil]
  · rw [hpascal]
    refine ⟨fun h => ?_, fun h => ?_⟩
    · exact q_not_mem_upper d (head?_append_mem (upper_ne_nil d) h)
    · obtain rfl := eq_of_underscore_mem_upper (head?_append_mem (upper_ne_nil d) h)
      obtain rfl := eq_of_underscore_mem_lower hd
      exact absurd hc (by decide)

/-! ## Characters between words -/

theorem not_mem_camelRest {d : Char} (hseparator : isSeparator d = true)
    (hupper : ∀ c, d ∈ upper c → c = d) (starts : Bool) (cs : List Char) :
    d ∉ camelRest starts cs := by
  induction cs generalizing starts with
  | nil => simp [camelRest]
  | cons c cs ih =>
      rw [camelRest]
      split_ifs with hc
      · exact ih true
      · rw [List.mem_append, not_or]
        refine ⟨fun hmem => hc ?_, ih false⟩
        rwa [hupper c hmem]
      · rw [List.mem_cons, not_or]
        refine ⟨fun hmem => hc ?_, ih false⟩
        rwa [← hmem]

/-- A separator that is the case of no other character is gone from camel case. -/
theorem not_mem_camelChars {d : Char} (hseparator : isSeparator d = true)
    (hupper : ∀ c, d ∈ upper c → c = d) (hlower : ∀ c, d ∈ lower c → c = d) (cs : List Char) :
    d ∉ camelChars cs := by
  induction cs with
  | nil => simp [camelChars]
  | cons c cs ih =>
      rw [camelChars]
      split_ifs with hc
      · exact ih
      · rw [List.mem_append, not_or]
        refine ⟨fun hmem => hc ?_, not_mem_camelRest hseparator hupper false cs⟩
        rwa [hlower c hmem]

theorem not_mem_pascalChars {d : Char} (hseparator : isSeparator d = true)
    (hupper : ∀ c, d ∈ upper c → c = d) (hlower : ∀ c, d ∈ lower c → c = d) (cs : List Char) :
    d ∉ pascalChars cs := by
  have hcamel := not_mem_camelChars hseparator hupper hlower cs
  rw [pascalChars]
  split
  · simp
  · rename_i c rest hchars
    rw [hchars, List.mem_cons, not_or] at hcamel
    rw [List.mem_append, not_or]
    exact ⟨fun hmem => hcamel.1 (hupper c hmem).symm, hcamel.2⟩

/-! ## Identifier characters -/

theorem toNat_lt_of_identifierChar {c : Char} (h : isIdentifierChar c = true) : c.toNat < 128 := by
  -- The classes of letters and digits are ranges; only their upper ends count.
  have hupper : c.isUpper = true → c.toNat < 128 := fun hc =>
    lt_of_le_of_lt (of_decide_eq_true hc).2 (by decide)
  have hlower : c.isLower = true → c.toNat < 128 := fun hc =>
    lt_of_le_of_lt (of_decide_eq_true (Bool.and_eq_true_iff.1 hc).2) (by decide)
  have hdigit : c.isDigit = true → c.toNat < 128 := fun hc =>
    lt_of_le_of_lt (of_decide_eq_true (Bool.and_eq_true_iff.1 hc).2) (by decide)
  rw [isIdentifierChar, Bool.or_eq_true, Bool.or_eq_true] at h
  rcases h with (halphanum | hunderscore) | hdollar
  · rcases Bool.or_eq_true_iff.1 halphanum with halpha | hc
    · rcases Bool.or_eq_true_iff.1 halpha with hc | hc
      · exact hupper hc
      · exact hlower hc
    · exact hdigit hc
  · rw [eq_of_beq hunderscore]
    decide
  · rw [eq_of_beq hdollar]
    decide

/-- Identifier characters are ASCII, so that what holds of them can be checked one by one. -/
theorem forall_identifierChar {P : Char → Prop}
    (h : ∀ n < 128, isIdentifierChar (Char.ofNat n) = true → P (Char.ofNat n)) {c : Char}
    (hc : isIdentifierChar c = true) : P c := by
  have hcode := h c.toNat (toNat_lt_of_identifierChar hc)
  rw [Char.ofNat_toNat] at hcode
  exact hcode hc

/-- For an ASCII character only the first run of a table counts. -/
theorem caseMap_ascii {runs : List Run} {long : List (Nat × List Nat)} {c : Char}
    (hlong : ∀ entry ∈ long, 128 ≤ entry.1) (hruns : ∀ r ∈ runs.drop 1, 128 ≤ r.first)
    (hc : c.toNat < 128) : caseMap runs long c = caseMap (runs.take 1) [] c := by
  have hlongNone : long.find? (·.1 == c.toNat) = none := by
    rw [List.find?_eq_none]
    intro entry hentry
    have hlarge := hlong entry hentry
    simp only [beq_iff_eq]
    omega
  have hrunsNone : (runs.drop 1).find? (·.covers c.toNat) = none := by
    rw [List.find?_eq_none]
    intro r hr
    have hlarge := hruns r hr
    simp only [Run.covers, Bool.and_eq_true, decide_eq_true_eq]
    omega
  have hrun : runs.find? (·.covers c.toNat) = (runs.take 1).find? (·.covers c.toNat) := by
    rw [← List.take_append_drop 1 runs, List.find?_append, hrunsNone, Option.or_none,
      List.take_append_drop]
  simp only [caseMap, hlongNone, hrun, List.find?_nil]

theorem identifierChar_upper {c : Char} (hc : isIdentifierChar c = true) :
    ∀ d ∈ upper c, isIdentifierChar d = true := by
  rw [upper, caseMap_ascii (by decide) (by decide +kernel) (toNat_lt_of_identifierChar hc),
    ← List.all_eq_true]
  refine forall_identifierChar
    (P := fun c => (caseMap (upperRuns.take 1) [] c).all isIdentifierChar = true) ?_ hc
  decide +kernel

theorem identifierChar_lower {c : Char} (hc : isIdentifierChar c = true) :
    ∀ d ∈ lower c, isIdentifierChar d = true := by
  rw [lower, caseMap_ascii (by decide) (by decide +kernel) (toNat_lt_of_identifierChar hc),
    ← List.all_eq_true]
  refine forall_identifierChar
    (P := fun c => (caseMap (lowerRuns.take 1) [] c).all isIdentifierChar = true) ?_ hc
  decide +kernel

/-- A character that an identifier starts with, but for `_`, separates no words and has a lower case
that an identifier starts with. -/
theorem identifierStart_lower {c : Char} (hc : isIdentifierStart c = true) (hne : c ≠ '_') :
    isSeparator c = false ∧ isIdentifierChars (lower c) = true := by
  have hchar := isIdentifierChar_of_start hc
  rw [lower, caseMap_ascii (by decide) (by decide +kernel) (toNat_lt_of_identifierChar hchar)]
  refine forall_identifierChar
    (P := fun c => isIdentifierStart c = true → c ≠ '_' →
      isSeparator c = false ∧ isIdentifierChars (caseMap (lowerRuns.take 1) [] c) = true)
    ?_ hchar hc hne
  decide +kernel

theorem identifierChars_append {front back : List Char} (hfront : isIdentifierChars front = true)
    (hback : ∀ c ∈ back, isIdentifierChar c = true) : isIdentifierChars (front ++ back) = true := by
  cases front with
  | nil => cases hfront
  | cons c rest =>
      rw [isIdentifierChars, Bool.and_eq_true, List.all_eq_true] at hfront
      rw [List.cons_append, isIdentifierChars, Bool.and_eq_true, List.all_eq_true]
      exact ⟨hfront.1, List.forall_mem_append.2 ⟨hfront.2, hback⟩⟩

theorem identifierChar_camelRest {cs : List Char} (h : ∀ c ∈ cs, isIdentifierChar c = true)
    (starts : Bool) : ∀ c ∈ camelRest starts cs, isIdentifierChar c = true := by
  induction cs generalizing starts with
  | nil => simp [camelRest]
  | cons c cs ih =>
      obtain ⟨hc, hcs⟩ := List.forall_mem_cons.1 h
      rw [camelRest]
      split_ifs
      · exact ih hcs true
      · exact List.forall_mem_append.2 ⟨identifierChar_upper hc, ih hcs false⟩
      · exact List.forall_mem_cons.2 ⟨hc, ih hcs false⟩

theorem identifierChar_camelChars {cs : List Char} (h : ∀ c ∈ cs, isIdentifierChar c = true) :
    ∀ c ∈ camelChars cs, isIdentifierChar c = true := by
  induction cs with
  | nil => simp [camelChars]
  | cons c cs ih =>
      obtain ⟨hc, hcs⟩ := List.forall_mem_cons.1 h
      rw [camelChars]
      split_ifs
      · exact ih hcs
      · exact List.forall_mem_append.2 ⟨identifierChar_lower hc, identifierChar_camelRest hcs false⟩

theorem identifierChar_pascalChars {cs : List Char} (h : ∀ c ∈ cs, isIdentifierChar c = true) :
    ∀ c ∈ pascalChars cs, isIdentifierChar c = true := by
  have hcamel := identifierChar_camelChars h
  rw [pascalChars]
  split
  · simp
  · rename_i c rest hchars
    rw [hchars] at hcamel
    obtain ⟨hc, hrest⟩ := List.forall_mem_cons.1 hcamel
    exact List.forall_mem_append.2 ⟨identifierChar_upper hc, hrest⟩

/-- The camel case of an identifier is one, unless the identifier begins with `_`: that is dropped,
and a digit may follow. -/
theorem identifierChars_camelChars {cs : List Char} (h : isIdentifierChars cs = true)
    (hhead : cs.head? ≠ some '_') : isIdentifierChars (camelChars cs) = true := by
  cases cs with
  | nil => cases h
  | cons c cs =>
      rw [isIdentifierChars, Bool.and_eq_true, List.all_eq_true] at h
      obtain ⟨hstart, hrest⟩ := h
      obtain ⟨hseparator, hlower⟩ := identifierStart_lower hstart (by simpa using hhead)
      rw [camelChars, if_neg (by simp [hseparator])]
      exact identifierChars_append hlower (identifierChar_camelRest hrest false)

end ClientLoom.Text
