import ClientLoom.Inference
import ClientLoom.Proofs.Outcomes
import Mathlib.Data.List.Nodup

/-!
# The registry of names

A claim always gets a name that was free: of one number more than there are names, one makes the name
free.  A walk that claims names is then described by the names that it adds to the registry.
`Walk.Claims` is that description, and it goes along the steps of a walk.
-/

namespace ClientLoom

namespace TypeNames

/-- The number behind a name can be read off. -/
theorem numbered_injective (base : String) : Function.Injective (numbered base) := by
  have hread : Function.LeftInverse
      (fun name => Nat.ofDigitChars 10 (name.toList.drop base.toList.length) 0)
      (numbered base) := by
    intro n
    simp [numbered]
  exact hread.injective

theorem contains_iff {names : TypeNames} {name : String} :
    names.contains name = true ↔ name ∈ names.used := by
  simp [contains]

/-- One of the candidates is free, since there are more of them than names that are taken. -/
theorem isSome_freeNumber? (names : TypeNames) (base : String) :
    (names.freeNumber? base).isSome := by
  cases hfree : names.freeNumber? base with
  | some n => rfl
  | none =>
      exfalso
      have hsubset : (List.range' 2 (names.size + 1)).map (numbered base) ⊆ names.used := by
        intro name hname
        obtain ⟨n, hn, rfl⟩ := List.mem_map.1 hname
        have htaken := List.find?_eq_none.1 hfree n hn
        simpa [contains] using htaken
      have hnodup : ((List.range' 2 (names.size + 1)).map (numbered base)).Nodup :=
        (List.nodup_range' _).map (numbered_injective base)
      have hle := hnodup.length_le_of_subset hsubset
      rw [List.length_map, List.length_range', size] at hle
      omega

/-- A claim gets the name itself or the name with a number behind it. -/
theorem choose_cases (names : TypeNames) (base : String) :
    names.choose base = base ∨ ∃ n, names.choose base = numbered base n := by
  unfold choose
  split
  · split
    · exact .inr ⟨_, rfl⟩
    · exact .inl rfl
  · exact .inl rfl

theorem choose_not_mem (names : TypeNames) (base : String) :
    names.choose base ∉ names.used := by
  by_cases hbase : names.contains base = true
  · obtain ⟨n, hn⟩ := Option.isSome_iff_exists.1 (names.isSome_freeNumber? base)
    have hfree := List.find?_some hn
    simp only [choose, hbase, if_true, hn]
    simpa [contains] using hfree
  · simp only [choose, hbase, Bool.false_eq_true, if_false]
    exact fun hmem => hbase (contains_iff.2 hmem)

end TypeNames

namespace Walk

/-- From a registry without repetitions a walk adds names to the front and repeats none; if it
succeeds, its result and the names it added are related by `post`. -/
def Claims {α : Type} (walk : Walk α) (post : α → List String → Prop) : Prop :=
  ∀ names : TypeNames, names.used.Nodup →
    ∃ added : List String,
      (walk.run names).2.used = added ++ names.used ∧ (added ++ names.used).Nodup ∧
        ∀ result : α, (walk.run names).1 = .ok result → post result added

variable {α β : Type}

theorem claims_pure {post : α → List String → Prop} {result : α} (h : post result []) :
    Claims (pure result) post := by
  intro names hnames
  refine ⟨[], rfl, hnames, fun result' hresult => ?_⟩
  obtain rfl := Except.ok.inj hresult
  exact h

theorem claims_claim (base : String) :
    Claims (Walk.claim base) fun name added => added = [name] := by
  intro names hnames
  refine ⟨[names.choose base], rfl, ?_, ?_⟩
  · exact List.nodup_cons.2 ⟨names.choose_not_mem base, hnames⟩
  · rintro name hname
    rw [← Except.ok.inj hname]

/-- A step that reads no registry adds no names. -/
theorem claims_liftExcept {post : α → List String → Prop} (outcome : Except Error α)
    (h : ∀ result, outcome = .ok result → post result []) :
    Claims (liftExcept outcome) post := by
  cases outcome with
  | error e =>
      intro names hnames
      refine ⟨[], rfl, hnames, fun result hresult => ?_⟩
      cases hresult
  | ok result => exact claims_pure (h result rfl)

/-- The names of a step are added behind those of the step before it. -/
theorem Claims.bind {walk : Walk α} {next : α → Walk β} {post : α → List String → Prop}
    {post' : β → List String → Prop} (hwalk : Claims walk post)
    (hnext : ∀ result added, post result added →
      Claims (next result) fun result' more => post' result' (more ++ added)) :
    Claims (walk >>= next) post' := by
  intro names hnames
  obtain ⟨added, hused, hnodup, hpost⟩ := hwalk names hnames
  rw [run_bind]
  cases houtcome : (walk.run names).1 with
  | error e => exact ⟨added, hused, hnodup, fun result hresult => by cases hresult⟩
  | ok result =>
      have hnames' : (walk.run names).2.used.Nodup := by
        rw [hused]
        exact hnodup
      obtain ⟨more, hmore, hmoreNodup, hmorePost⟩ :=
        hnext result added (hpost result houtcome) (walk.run names).2 hnames'
      rw [hused, ← List.append_assoc] at hmore hmoreNodup
      exact ⟨more ++ added, hmore, hmoreNodup, hmorePost⟩

end Walk

end ClientLoom
