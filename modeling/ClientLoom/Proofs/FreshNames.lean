import ClientLoom.Proofs.NameRegistry

/-!
# Names that claims get

A claim of a free name gets the name itself.  A claim of a name that is taken gets it with the least
number, from two up, that makes it free.  The numbers are tried up to one more than there are names,
and a search without that bound would stop at the same number, since the numbers behind one base
give different names.  Claims on one registry therefore never get the same name twice, whatever
their bases are: a base may itself be another one with a number behind it.
-/

namespace ClientLoom

namespace TypeNames

/-- The number is the least one, from two up, that makes the name free. -/
structure LeastFree (names : TypeNames) (base : String) (n : Nat) : Prop where
  two_le : 2 ≤ n
  free : names.contains (numbered base n) = false
  least : ∀ m, 2 ≤ m → m < n → names.contains (numbered base m) = true

/-- A search that tries the numbers from the first one up, without a bound, stops at the second
one. -/
inductive SearchStops (names : TypeNames) (base : String) : Nat → Nat → Prop
  | here {n : Nat} (h : names.contains (numbered base n) = false) : SearchStops names base n n
  | later {n last : Nat} (h : names.contains (numbered base n) = true)
      (hlater : SearchStops names base (n + 1) last) : SearchStops names base n last

/-- Claims the bases one after the other: the names that they get, and the registry after them. -/
def claimAll (names : TypeNames) : List String → List String × TypeNames
  | [] => ([], names)
  | base :: rest =>
    let claimed := names.claim base
    let others := claimed.2.claimAll rest
    (claimed.1 :: others.1, others.2)

variable {names : TypeNames} {base : String}

@[simp] theorem toList_numbered (base : String) (n : Nat) :
    (numbered base n).toList = base.toList ++ Nat.toDigits 10 n := by
  rw [numbered, String.toList_append, Nat.toString_eq_ofList_toDigits, String.toList_ofList]

theorem leastFree_of_freeNumber? {n : Nat} (h : names.freeNumber? base = some n) :
    names.LeastFree base n := by
  obtain ⟨hfree, hrange, hbefore⟩ := List.find?_range'_eq_some.1 h
  refine ⟨(List.mem_range'_1.1 hrange).1, by simpa using hfree, fun m hm hlt => ?_⟩
  simpa using hbefore m hm hlt

/-- From two up the search passes over the taken numbers and stops at the free one. -/
theorem LeastFree.searchStops {n : Nat} (h : names.LeastFree base n) :
    names.SearchStops base 2 n := by
  -- The induction goes down from the free number, over how far in front of it the search starts.
  have hfrom : ∀ distance ≤ n - 2, names.SearchStops base (n - distance) n := by
    intro distance hdistance
    induction distance with
    | zero => exact .here h.free
    | succ distance ih =>
        have hnext : n - (distance + 1) + 1 = n - distance := by omega
        have htaken := h.least (n - (distance + 1)) (by omega) (by omega)
        refine .later htaken ?_
        rw [hnext]
        exact ih (by omega)
  have hstart : n - (n - 2) = 2 := by
    have htwo := h.two_le
    omega
  have hstops := hfrom (n - 2) (Nat.le_refl _)
  rwa [hstart] at hstops

/-! ## One claim -/

theorem fst_claim_of_free (h : names.contains base = false) : (names.claim base).1 = base := by
  simp only [claim, choose, h, Bool.false_eq_true, if_false]

theorem exists_number_of_taken (h : names.contains base = true) :
    ∃ n, names.freeNumber? base = some n ∧ (names.claim base).1 = numbered base n := by
  obtain ⟨n, hn⟩ := Option.isSome_iff_exists.1 (names.isSome_freeNumber? base)
  exact ⟨n, hn, by simp only [claim, choose, h, if_true, hn]⟩

@[simp] theorem contains_fst_claim (names : TypeNames) (base : String) :
    names.contains (names.claim base).1 = false := by
  have hnew : (names.claim base).1 ∉ names.used := names.choose_not_mem base
  exact Bool.eq_false_iff.2 fun htaken => hnew (contains_iff.1 htaken)

/-- The registry after a claim has the new name, and the names that it had. -/
@[simp] theorem contains_snd_claim (names : TypeNames) (base name : String) :
    (names.claim base).2.contains name = true ↔
      name = (names.claim base).1 ∨ names.contains name = true := by
  rw [contains_iff, contains_iff]
  exact List.mem_cons

/-! ## Many claims -/

@[simp] theorem contains_snd_claimAll (names : TypeNames) (bases : List String) (name : String) :
    (names.claimAll bases).2.contains name = true ↔
      name ∈ (names.claimAll bases).1 ∨ names.contains name = true := by
  induction bases generalizing names with
  | nil => simp [claimAll]
  | cons base bases ih =>
      rw [claimAll, ih, contains_snd_claim, List.mem_cons]
      tauto

theorem contains_of_mem_claimAll {bases : List String} {name : String}
    (h : name ∈ (names.claimAll bases).1) : names.contains name = false := by
  induction bases generalizing names with
  | nil => cases h
  | cons base bases ih =>
      rw [claimAll] at h
      rcases List.mem_cons.1 h with rfl | h
      · exact names.contains_fst_claim base
      · -- What is free after the first claim was free before it.
        have hlater := ih h
        rw [Bool.eq_false_iff] at hlater ⊢
        exact fun htaken => hlater ((names.contains_snd_claim base name).2 (.inr htaken))

theorem nodup_claimAll (names : TypeNames) (bases : List String) :
    (names.claimAll bases).1.Nodup := by
  induction bases generalizing names with
  | nil => exact List.nodup_nil
  | cons base bases ih =>
      rw [claimAll]
      refine List.nodup_cons.2 ⟨fun hmem => ?_, ih _⟩
      have htaken := (names.contains_snd_claim base _).2 (.inl rfl)
      rw [contains_of_mem_claimAll hmem] at htaken
      cases htaken

/-- Whatever the registry and the base, a claim gets the base if it is free, and else the base with
the decimal digits of the least number from two up that makes it free behind it.  There always is
one: the search for it stops, and the name that a claim would fall back on is never used.  The name
was free, and the registry after the claim has that name and what it had, and no other name.  Any
sequence of claims gets names that are pairwise distinct and were free before all of them. -/
theorem claims_get_least_free (names : TypeNames) :
    (∀ base : String,
      (names.contains base = false → (names.claim base).1 = base) ∧
      (names.contains base = true → ∃ n, names.LeastFree base n ∧ names.SearchStops base 2 n ∧
        names.freeNumber? base = some n ∧
        (names.claim base).1.toList = base.toList ++ Nat.toDigits 10 n) ∧
      names.contains (names.claim base).1 = false ∧
      (∀ name, (names.claim base).2.contains name = true ↔
        name = (names.claim base).1 ∨ names.contains name = true) ∧
      (names.claim base).2.size = names.size + 1) ∧
    ∀ bases : List String,
      (names.claimAll bases).1.Nodup ∧
      (∀ name ∈ (names.claimAll bases).1, names.contains name = false) ∧
      ∀ name, (names.claimAll bases).2.contains name = true ↔
        name ∈ (names.claimAll bases).1 ∨ names.contains name = true := by
  refine ⟨fun base => ⟨fst_claim_of_free, fun htaken => ?_, names.contains_fst_claim base,
    names.contains_snd_claim base, rfl⟩, fun bases => ⟨names.nodup_claimAll bases,
    fun name => contains_of_mem_claimAll, names.contains_snd_claimAll bases⟩⟩
  obtain ⟨n, hn, hname⟩ := exists_number_of_taken htaken
  have hleast := leastFree_of_freeNumber? hn
  exact ⟨n, hleast, hleast.searchStops, hn, by rw [hname, toList_numbered]⟩

-- A base that is another one with a number behind it, and a name that a number would give.
example : (claimAll ⟨["T", "T3"]⟩ ["T", "T2", "T", "T2", "T22"]).1 =
    ["T2", "T22", "T4", "T23", "T222"] := by
  decide

end TypeNames

end ClientLoom
