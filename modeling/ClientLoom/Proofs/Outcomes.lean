import ClientLoom.Error
import Mathlib.Data.List.Forall2

/-!
# Outcomes of steps

A chain of steps succeeds only if each of them does, a step with a wrapped error if the step itself
does, and a chain that changes a state goes on from the state that the step before has left.  A
step over a list succeeds if it does on every item, and otherwise it gives the error of the first
item on which it fails.
-/

namespace ClientLoom

@[simp] theorem bind_eq_ok {ε α β : Type} {step : Except ε α} {next : α → Except ε β} {result : β} :
    (step >>= next) = .ok result ↔ ∃ value, step = .ok value ∧ next value = .ok result := by
  cases step with
  | error e => simp [bind, Except.bind]
  | ok value => simp [bind, Except.bind]

@[simp] theorem bind_eq_error {ε α β : Type} {step : Except ε α} {next : α → Except ε β} {e : ε} :
    (step >>= next) = .error e ↔
      step = .error e ∨ ∃ value, step = .ok value ∧ next value = .error e := by
  cases step with
  | error fault => simp [bind, Except.bind]
  | ok value => simp [bind, Except.bind]

@[simp] theorem map_eq_ok {ε α β : Type} {f : α → β} {step : Except ε α} {result : β} :
    f <$> step = .ok result ↔ ∃ value, step = .ok value ∧ f value = result := by
  cases step with
  | error e => simp [Functor.map, Except.map]
  | ok value => simp [Functor.map, Except.map]

@[simp] theorem map_eq_error {ε α β : Type} {f : α → β} {step : Except ε α} {e : ε} :
    f <$> step = .error e ↔ step = .error e := by
  cases step with
  | error fault => simp [Functor.map, Except.map]
  | ok value => simp [Functor.map, Except.map]

theorem run_bind {ε σ α β : Type} (step : ExceptT ε (StateM σ) α)
    (next : α → ExceptT ε (StateM σ) β) (state : σ) :
    (step >>= next).run state =
      match (step.run state).1 with
      | .ok result => (next result).run (step.run state).2
      | .error e => (.error e, (step.run state).2) := by
  simp only [ExceptT.run, bind, ExceptT.bind, ExceptT.mk, StateT.bind]
  cases hfirst : step state with
  | mk outcome state' =>
      cases outcome with
      | error e => rfl
      | ok result => rfl

@[simp] theorem mapError_eq_ok {ε ε' α : Type} {step : Except ε α} {wrap : ε → ε'} {result : α} :
    step.mapError wrap = .ok result ↔ step = .ok result := by
  cases step with
  | error e =>
      constructor
      · intro h
        cases h
      · intro h
        cases h
  | ok value =>
      constructor
      · intro h
        rw [Except.ok.inj h]
      · intro h
        rw [Except.ok.inj h]
        rfl

@[simp] theorem mapError_eq_error {ε ε' α : Type} {step : Except ε α} {wrap : ε → ε'} {e : ε'} :
    step.mapError wrap = .error e ↔ ∃ cause, step = .error cause ∧ wrap cause = e := by
  cases step with
  | error cause => simp [Except.mapError]
  | ok value => simp [Except.mapError]

/-- What is seen of the result of a step is seen after it has succeeded. -/
theorem exists_of_toOption {ε α β : Type} {step : Except ε α} {view : α → β} {seen : β}
    (h : step.toOption.map view = some seen) : ∃ result, step = .ok result ∧ view result = seen := by
  cases step with
  | error e => simp [Except.toOption] at h
  | ok result => exact ⟨result, rfl, Option.some.inj h⟩

theorem exists_of_toOption_bind {ε α β γ : Type} {step : Except ε α} {next : α → Except ε β}
    {view : β → γ} {seen : γ} (h : (step.bind next).toOption.map view = some seen) :
    ∃ value result, step = .ok value ∧ next value = .ok result ∧ view result = seen := by
  obtain ⟨result, hresult, hview⟩ := exists_of_toOption h
  obtain ⟨value, hstep, hnext⟩ := bind_eq_ok.1 hresult
  exact ⟨value, result, hstep, hnext, hview⟩

/-! ## Steps over a list -/

section Lists

variable {ε α β : Type} {step : α → Except ε β} {items : List α} {results : List β} {e : ε}

/-- The first item on which a step fails gives this error. -/
def FailsFirst (step : α → Except ε β) (items : List α) (e : ε) : Prop :=
  ∃ front item back, items = front ++ item :: back ∧
    (∀ earlier ∈ front, ∃ result, step earlier = .ok result) ∧ step item = .error e

theorem FailsFirst.cons {item : α} {result : β} (h : FailsFirst step items e)
    (hitem : step item = .ok result) : FailsFirst step (item :: items) e := by
  obtain ⟨front, failing, back, rfl, hfront, hfailing⟩ := h
  refine ⟨item :: front, failing, back, rfl, ?_, hfailing⟩
  intro earlier hearlier
  rcases List.mem_cons.1 hearlier with rfl | hearlier
  · exact ⟨result, hitem⟩
  · exact hfront earlier hearlier

theorem FailsFirst.not_forall_ok (h : FailsFirst step items e) :
    ¬ ∀ item ∈ items, ∃ result, step item = .ok result := by
  obtain ⟨front, failing, back, rfl, -, hfailing⟩ := h
  intro hall
  obtain ⟨result, hresult⟩ := hall failing (by simp)
  rw [hfailing] at hresult
  cases hresult

theorem forall₂_of_mapM (h : items.mapM step = .ok results) :
    List.Forall₂ (fun item result => step item = .ok result) items results := by
  induction items generalizing results with
  | nil =>
      obtain rfl := Except.ok.inj h
      exact .nil
  | cons item items ih =>
      rw [List.mapM_cons] at h
      obtain ⟨result, hitem, h⟩ := bind_eq_ok.1 h
      obtain ⟨others, hothers, h⟩ := bind_eq_ok.1 h
      obtain rfl := Except.ok.inj h
      exact .cons hitem (ih hothers)

theorem failsFirst_of_mapM (h : items.mapM step = .error e) : FailsFirst step items e := by
  induction items with
  | nil => cases h
  | cons item items ih =>
      rw [List.mapM_cons] at h
      rcases bind_eq_error.1 h with hitem | ⟨result, hitem, h⟩
      · exact ⟨[], item, items, rfl, by simp, hitem⟩
      · rcases bind_eq_error.1 h with hitems | ⟨others, -, h⟩
        · exact (ih hitems).cons hitem
        · cases h

theorem exists_mapM_eq_ok_iff :
    (∃ results, items.mapM step = .ok results) ↔
      ∀ item ∈ items, ∃ result, step item = .ok result := by
  constructor
  · rintro ⟨results, h⟩
    have hboth := (forall₂_of_mapM h).imp fun item result hitem =>
      (⟨⟨result, hitem⟩, hitem⟩ : (∃ result, step item = .ok result) ∧ step item = .ok result)
    exact ((List.forall₂_and_left _ _).1 hboth).1
  · intro hall
    cases h : items.mapM step with
    | ok results => exact ⟨results, rfl⟩
    | error e => exact absurd hall (failsFirst_of_mapM h).not_forall_ok

end Lists

end ClientLoom
