import ClientLoom.Spec.Service
import Mathlib.Data.List.Nodup

/-!
# Services that pass their checks

The endpoints of a service are checked one after the other, each against the names in front of it and
against the whole service.  A service passes exactly if its endpoints have names of their own and each
of them has a sound hook.
-/

namespace ClientLoom.ServiceSpec

variable {service : ServiceSpec} {name : String}

theorem checkEndpoints_cons_eq_ok_iff {earlier : List String} {endpoint : EndpointSpec}
    {rest : List EndpointSpec} :
    service.checkEndpoints name earlier (endpoint :: rest) = .ok () ↔
      endpoint.name ∉ earlier ∧ service.checkEndpoint endpoint = .ok () ∧
        service.checkEndpoints name (endpoint.name :: earlier) rest = .ok () := by
  rw [checkEndpoints, List.contains_eq_mem]
  by_cases hearlier : endpoint.name ∈ earlier
  · simp [hearlier]
  · cases hcheck : service.checkEndpoint endpoint with
    | error e => simp [hearlier, Outcome.inEndpoint, Except.mapError]
    | ok result => simp [hearlier, Outcome.inEndpoint, Except.mapError]

/-- A check of endpoints passes exactly if their names are new and each passes its own check. -/
@[simp] theorem checkEndpoints_eq_ok_iff {earlier : List String} {endpoints : List EndpointSpec} :
    service.checkEndpoints name earlier endpoints = .ok () ↔
      (endpoints.map EndpointSpec.name).Nodup ∧ (∀ endpoint ∈ endpoints, endpoint.name ∉ earlier) ∧
        ∀ endpoint ∈ endpoints, service.checkEndpoint endpoint = .ok () := by
  -- The names in front grow with every endpoint: a name behind it is new if it is none of those and
  -- not the name of this one either.
  induction endpoints generalizing earlier with
  | nil => simp [checkEndpoints]
  | cons endpoint endpoints ih =>
      rw [checkEndpoints_cons_eq_ok_iff, ih, List.map_cons, List.nodup_cons, List.forall_mem_cons,
        List.forall_mem_cons]
      constructor
      · rintro ⟨hnew, hcheck, hnames, hrest, hchecks⟩
        refine ⟨⟨fun hmem => ?_, hnames⟩, ⟨hnew, fun other hother => ?_⟩, hcheck, hchecks⟩
        · obtain ⟨other, hother, hname⟩ := List.mem_map.1 hmem
          exact hrest other hother (hname ▸ List.mem_cons_self)
        · exact fun hmem => hrest other hother (List.mem_cons_of_mem _ hmem)
      · rintro ⟨⟨hother, hnames⟩, ⟨hnew, hrest⟩, hcheck, hchecks⟩
        refine ⟨hnew, hcheck, hnames, fun other hmem hname => ?_, hchecks⟩
        rcases List.mem_cons.1 hname with hsame | hearlier
        · exact hother (hsame ▸ List.mem_map_of_mem hmem)
        · exact hrest other hmem hearlier

@[simp] theorem validate_eq_ok_iff :
    service.validate name = .ok () ↔ (service.endpoints.map EndpointSpec.name).Nodup ∧
      ∀ endpoint ∈ service.endpoints, service.checkEndpoint endpoint = .ok () := by
  simp [validate, checkEndpoints_eq_ok_iff]

/-- Among endpoints with names of their own, the one with a name is found in one place. -/
theorem exists_split_of_nodup {endpoints : List EndpointSpec}
    (hnames : (endpoints.map EndpointSpec.name).Nodup) {endpoint : EndpointSpec}
    (h : endpoint ∈ endpoints) :
    ∃ front back, endpoints = front ++ endpoint :: back ∧
      ∀ other ∈ front ++ back, other.name ≠ endpoint.name := by
  obtain ⟨front, back, rfl⟩ := List.append_of_mem h
  refine ⟨front, back, rfl, fun other hother hname => ?_⟩
  rw [List.map_append, List.map_cons, List.nodup_middle, List.nodup_cons, ← List.map_append] at hnames
  exact hnames.1 (hname ▸ List.mem_map_of_mem hother)

/-- The check of a mutation passes exactly if it makes at most one thing stale, and an endpoint that
it names exists. -/
theorem checkEndpoint_mutation_iff {endpoint : EndpointSpec} {options : MutationOptions}
    (h : endpoint.hook = .ok (.mutation options)) :
    service.checkEndpoint endpoint = .ok () ↔
      (options.invalidateQueryKey = none ∨ options.invalidateEndpoint = none) ∧
        ∀ target, options.invalidateEndpoint = some target →
          ∃ other ∈ service.endpoints, other.name = target := by
  have hexists : ∀ target, (service.endpoint? target).isSome ↔
      ∃ other ∈ service.endpoints, other.name = target := by
    simp [endpoint?]
  rw [checkEndpoint, h]
  cases hkey : options.invalidateQueryKey with
  | none =>
      cases htarget : options.invalidateEndpoint with
      | none => simp [bind, Except.bind, hkey, htarget]
      | some target => simp [bind, Except.bind, hkey, htarget, ← hexists, Option.isSome_iff_ne_none]
  | some key =>
      cases htarget : options.invalidateEndpoint with
      | none => simp [bind, Except.bind, hkey, htarget]
      | some target => simp [bind, Except.bind, hkey, htarget]

end ClientLoom.ServiceSpec
