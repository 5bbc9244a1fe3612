import ClientLoom.Proofs.ParameterPlaces
import ClientLoom.Proofs.ServiceChecks

/-!
# What the check of a service reports

The hook of an endpoint is sound by conditions on its switches, its parameters and the names of the
service.  Each way to break them has an error of its own, and the check of the endpoint gives that
error.  A service is checked endpoint by endpoint, so that the first one with a name from further in
front or without a sound hook decides what is reported.
-/

namespace ClientLoom

/-- A switch that is on; options switch on what they are for. -/
def Toggle.isOn {α : Type} : Toggle α → Bool
  | .enabled on => on
  | .options _ => true

/-- The hooks that an endpoint switches on, by name. -/
def EndpointSpec.enabledHooks (endpoint : EndpointSpec) : List String :=
  (if endpoint.useQuery.any Toggle.isOn then ["useQuery"] else []) ++
    (if endpoint.useInfiniteQuery.any Toggle.isOn then ["useInfiniteQuery"] else []) ++
    (if endpoint.useMutation.any Toggle.isOn then ["useMutation"] else [])

namespace ServiceSpec

/-- The endpoint of the service has a sound hook, or none. -/
structure SoundHook (service : ServiceSpec) (endpoint : EndpointSpec) : Prop where
  one : endpoint.enabledHooks.length ≤ 1
  /-- A page key has no default, so a switch alone does not give a paginated query. -/
  paged : endpoint.useInfiniteQuery ≠ some (.enabled true)
  pageKey : ∀ options, endpoint.useInfiniteQuery = some (.options options) →
    endpoint.HasParam options.pageKey
  oneTarget : ∀ options, endpoint.useMutation = some (.options options) →
    options.invalidateQueryKey = none ∨ options.invalidateEndpoint = none
  target : ∀ options, endpoint.useMutation = some (.options options) →
    ∀ target, options.invalidateEndpoint = some target →
      ∃ other ∈ service.endpoints, other.name = target

/-- The endpoint of the service has no sound hook, for a reason that the error tells.  A switch
alone for a paginated query is told before several hooks, and those before what is wrong with one
of them. -/
inductive HookFault (service : ServiceSpec) (endpoint : EndpointSpec) : Error → Prop
  | bareSwitch (hswitch : endpoint.useInfiniteQuery = some (.enabled true)) :
      HookFault service endpoint
        (.validation "useInfiniteQuery" "expected an options object with pageKey")
  | several (hpaged : endpoint.useInfiniteQuery ≠ some (.enabled true))
      (hseveral : 1 < endpoint.enabledHooks.length) :
      HookFault service endpoint
        (.conflictingHooks endpoint.name (", ".intercalate endpoint.enabledHooks))
  | pageKey {options : InfiniteOptions} (hone : endpoint.enabledHooks.length ≤ 1)
      (hoptions : endpoint.useInfiniteQuery = some (.options options))
      (hkey : ¬ endpoint.HasParam options.pageKey) :
      HookFault service endpoint (.validation "useInfiniteQuery.pageKey"
        ("'" ++ options.pageKey ++ "' is not a key of params"))
  | twoTargets {options : MutationOptions} {key target : String}
      (hone : endpoint.enabledHooks.length ≤ 1)
      (hoptions : endpoint.useMutation = some (.options options))
      (hkey : options.invalidateQueryKey = some key)
      (htarget : options.invalidateEndpoint = some target) :
      HookFault service endpoint (.validation "useMutation"
        "set either invalidateQueryKey or invalidateEndpoint, not both")
  | unknownTarget {options : MutationOptions} {target : String}
      (hone : endpoint.enabledHooks.length ≤ 1)
      (hoptions : endpoint.useMutation = some (.options options))
      (hkey : options.invalidateQueryKey = none)
      (htarget : options.invalidateEndpoint = some target)
      (hunknown : ∀ other ∈ service.endpoints, other.name ≠ target) :
      HookFault service endpoint (.validation "useMutation.invalidateEndpoint"
        ("no endpoint named '" ++ target ++ "' in this service"))

variable {service : ServiceSpec} {endpoint : EndpointSpec}

theorem HookFault.not_soundHook {cause : Error} (h : service.HookFault endpoint cause) :
    ¬ service.SoundHook endpoint := by
  intro hsound
  cases h with
  | bareSwitch hswitch => exact hsound.paged hswitch
  | several hpaged hseveral => exact absurd hsound.one (by omega)
  | pageKey hone hoptions hkey => exact hkey (hsound.pageKey _ hoptions)
  | twoTargets hone hoptions hkey htarget =>
      rcases hsound.oneTarget _ hoptions with hnone | hnone
      · simp [hkey] at hnone
      · simp [htarget] at hnone
  | unknownTarget hone hoptions hkey htarget hunknown =>
      obtain ⟨other, hother, hname⟩ := hsound.target _ hoptions _ htarget
      exact hunknown other hother hname

/-- Every endpoint has a sound hook or one of the faults. -/
theorem soundHook_or_hookFault (service : ServiceSpec) (endpoint : EndpointSpec) :
    service.SoundHook endpoint ∨ ∃ cause, service.HookFault endpoint cause := by
  by_cases hpaged : endpoint.useInfiniteQuery = some (.enabled true)
  · exact .inr ⟨_, .bareSwitch hpaged⟩
  by_cases hone : endpoint.enabledHooks.length ≤ 1
  · by_cases hpage : ∀ options, endpoint.useInfiniteQuery = some (.options options) →
        endpoint.HasParam options.pageKey
    · by_cases htargets : ∀ options, endpoint.useMutation = some (.options options) →
          options.invalidateQueryKey = none ∨ options.invalidateEndpoint = none
      · by_cases htarget : ∀ options, endpoint.useMutation = some (.options options) →
            ∀ target, options.invalidateEndpoint = some target →
              ∃ other ∈ service.endpoints, other.name = target
        · exact .inl ⟨hone, hpaged, hpage, htargets, htarget⟩
        · push Not at htarget
          obtain ⟨options, hoptions, target, htarget, hunknown⟩ := htarget
          have hkey : options.invalidateQueryKey = none := by
            simpa [htarget] using htargets options hoptions
          exact .inr ⟨_, .unknownTarget hone hoptions hkey htarget hunknown⟩
      · push Not at htargets
        obtain ⟨options, hoptions, hkey, htarget⟩ := htargets
        obtain ⟨key, hkey⟩ := Option.ne_none_iff_exists'.1 hkey
        obtain ⟨target, htarget⟩ := Option.ne_none_iff_exists'.1 htarget
        exact .inr ⟨_, .twoTargets hone hoptions hkey htarget⟩
    · push Not at hpage
      obtain ⟨options, hoptions, hkey⟩ := hpage
      exact .inr ⟨_, .pageKey hone hoptions hkey⟩
  · exact .inr ⟨_, .several hpaged (by omega)⟩

end ServiceSpec

/-! ## The hook of an endpoint -/

namespace EndpointSpec

variable {endpoint : EndpointSpec}

/-- The options of the paginated query, if they are given. -/
def pagedOptions? (endpoint : EndpointSpec) : Option InfiniteOptions :=
  match endpoint.useInfiniteQuery with
  | some (.options options) => some options
  | _ => none

theorem pagedOptions?_eq_some_iff {options : InfiniteOptions} :
    endpoint.pagedOptions? = some options ↔
      endpoint.useInfiniteQuery = some (.options options) := by
  unfold pagedOptions?
  split
  · rename_i options' hoptions
    simp [hoptions]
  · rename_i hnot
    constructor
    · intro h
      cases h
    · intro h
      exact absurd h (hnot options)

/-- Where the paginated query is not just switched on, its options are those that are given. -/
theorem infinite?_eq (h : endpoint.useInfiniteQuery ≠ some (.enabled true)) :
    endpoint.infinite? = .ok endpoint.pagedOptions? ∧
      endpoint.pagedOptions?.isSome = endpoint.useInfiniteQuery.any Toggle.isOn := by
  unfold infinite? pagedOptions?
  cases hpaged : endpoint.useInfiniteQuery with
  | none => exact ⟨rfl, rfl⟩
  | some toggle =>
      cases toggle with
      | options options => exact ⟨rfl, rfl⟩
      | enabled on =>
          cases on with
          | false => exact ⟨rfl, rfl⟩
          | true => exact absurd hpaged h

@[simp] theorem isSome_query? : endpoint.query?.isSome = endpoint.useQuery.any Toggle.isOn := by
  unfold query?
  rcases endpoint.useQuery with _ | ⟨_ | _⟩ | options <;> rfl

@[simp] theorem isSome_mutation? :
    endpoint.mutation?.isSome = endpoint.useMutation.any Toggle.isOn := by
  unfold mutation?
  rcases endpoint.useMutation with _ | ⟨_ | _⟩ | options <;> rfl

/-- The options of a mutation are given, or they are the default ones. -/
theorem mutation?_eq_some_iff {options : MutationOptions} :
    endpoint.mutation? = some options ↔
      endpoint.useMutation = some (.options options) ∨
        endpoint.useMutation = some (.enabled true) ∧ options = {} := by
  unfold mutation?
  rcases endpoint.useMutation with _ | ⟨_ | _⟩ | given
  · simp
  · simp [Toggle.options?]
  · simp [Toggle.options?, eq_comm]
  · simp [Toggle.options?]

theorem declaredHooks_eq (h : endpoint.useInfiniteQuery ≠ some (.enabled true)) :
    declaredHooks endpoint.query? endpoint.pagedOptions? endpoint.mutation? =
      endpoint.enabledHooks := by
  rw [declaredHooks, enabledHooks, isSome_query?, (infinite?_eq h).2, isSome_mutation?]

theorem hook_eq_error (hpaged : endpoint.useInfiniteQuery ≠ some (.enabled true))
    (hseveral : 1 < endpoint.enabledHooks.length) :
    endpoint.hook =
      .error (.conflictingHooks endpoint.name (", ".intercalate endpoint.enabledHooks)) := by
  rw [hook, (infinite?_eq hpaged).1]
  simp [bind, Except.bind, declaredHooks_eq hpaged, hseveral]

/-- An endpoint that switches on at most one hook has that hook, or none. -/
theorem hook_cases (hpaged : endpoint.useInfiniteQuery ≠ some (.enabled true))
    (hone : endpoint.enabledHooks.length ≤ 1) :
    (endpoint.pagedOptions? = none ∧ endpoint.mutation? = none ∧
        (endpoint.hook = .ok .none ∨ ∃ options, endpoint.hook = .ok (.query options))) ∨
      (∃ options, endpoint.pagedOptions? = some options ∧ endpoint.mutation? = none ∧
        endpoint.hook = .ok (.infinite options)) ∨
      ∃ options, endpoint.pagedOptions? = none ∧ endpoint.mutation? = some options ∧
        endpoint.hook = .ok (.mutation options) := by
  have hdeclared := hone
  rw [← declaredHooks_eq hpaged] at hdeclared
  have hfew : ¬ 1 < (declaredHooks endpoint.query? endpoint.pagedOptions?
      endpoint.mutation?).length := by omega
  rw [hook, (infinite?_eq hpaged).1]
  simp only [bind, Except.bind, hfew, if_false]
  -- Of the three kinds two at a time are excluded by the number of hooks.
  cases hquery : endpoint.query? with
  | some query =>
      cases hinfinite : endpoint.pagedOptions? with
      | some infinite => simp [declaredHooks, hquery, hinfinite] at hdeclared
      | none =>
          cases hmutation : endpoint.mutation? with
          | some mutation => simp [declaredHooks, hquery, hinfinite, hmutation] at hdeclared
          | none => exact .inl ⟨rfl, rfl, .inr ⟨query, rfl⟩⟩
  | none =>
      cases hinfinite : endpoint.pagedOptions? with
      | some infinite =>
          cases hmutation : endpoint.mutation? with
          | some mutation => simp [declaredHooks, hquery, hinfinite, hmutation] at hdeclared
          | none => exact .inr (.inl ⟨infinite, rfl, rfl, rfl⟩)
      | none =>
          cases hmutation : endpoint.mutation? with
          | some mutation => exact .inr (.inr ⟨mutation, rfl, rfl, rfl⟩)
          | none => exact .inl ⟨rfl, rfl, .inl rfl⟩

/-- The options of a paginated query that is the only hook. -/
theorem hook_of_paged (hone : endpoint.enabledHooks.length ≤ 1) {options : InfiniteOptions}
    (h : endpoint.useInfiniteQuery = some (.options options)) :
    endpoint.hook = .ok (.infinite options) := by
  have hoptions := pagedOptions?_eq_some_iff.2 h
  rcases hook_cases (by simp [h]) hone with ⟨hnone, -⟩ | ⟨options', hoptions', -, hhook⟩ |
    ⟨options', hnone, -⟩
  · simp [hoptions] at hnone
  · obtain rfl := Option.some.inj (hoptions.symm.trans hoptions')
    exact hhook
  · simp [hoptions] at hnone

/-- The options of a mutation that is the only hook. -/
theorem hook_of_mutation (hone : endpoint.enabledHooks.length ≤ 1) {options : MutationOptions}
    (h : endpoint.useMutation = some (.options options)) :
    endpoint.hook = .ok (.mutation options) := by
  have hoptions := mutation?_eq_some_iff.2 (.inl h)
  have hpaged : endpoint.useInfiniteQuery ≠ some (.enabled true) := by
    intro hpaged
    simp [enabledHooks, hpaged, h, Toggle.isOn] at hone
  rcases hook_cases hpaged hone with ⟨-, hnone, -⟩ | ⟨options', -, hnone, -⟩ |
    ⟨options', -, hoptions', hhook⟩
  · simp [hoptions] at hnone
  · simp [hoptions] at hnone
  · obtain rfl := Option.some.inj (hoptions.symm.trans hoptions')
    exact hhook

end EndpointSpec

/-! ## The check of an endpoint -/

namespace ServiceSpec

variable {service : ServiceSpec} {endpoint : EndpointSpec}

theorem checkEndpoint_infinite {options : InfiniteOptions}
    (h : endpoint.hook = .ok (.infinite options)) :
    service.checkEndpoint endpoint =
      if endpoint.paramKeys.contains options.pageKey then .ok ()
      else .error (.validation "useInfiniteQuery.pageKey"
        ("'" ++ options.pageKey ++ "' is not a key of params")) := by
  rw [checkEndpoint, h]
  rfl

theorem SoundHook.checkEndpoint_eq (h : service.SoundHook endpoint) :
    service.checkEndpoint endpoint = .ok () := by
  rcases EndpointSpec.hook_cases h.paged h.one with ⟨-, -, hhook | ⟨options, hhook⟩⟩ |
    ⟨options, hinfinite, -, hhook⟩ | ⟨options, -, hmutation, hhook⟩
  · rw [checkEndpoint, hhook]
    rfl
  · rw [checkEndpoint, hhook]
    rfl
  · have hkey := h.pageKey options (EndpointSpec.pagedOptions?_eq_some_iff.1 hinfinite)
    rw [checkEndpoint_infinite hhook,
      if_pos (List.contains_iff_mem.2 (EndpointSpec.mem_paramKeys.2 hkey))]
  · rw [checkEndpoint_mutation_iff hhook]
    rcases EndpointSpec.mutation?_eq_some_iff.1 hmutation with hoptions | ⟨-, rfl⟩
    · exact ⟨h.oneTarget options hoptions, h.target options hoptions⟩
    · exact ⟨.inl rfl, fun target htarget => by cases htarget⟩

theorem HookFault.checkEndpoint_eq {cause : Error} (h : service.HookFault endpoint cause) :
    service.checkEndpoint endpoint = .error cause := by
  cases h with
  | bareSwitch hswitch =>
      simp [checkEndpoint, EndpointSpec.hook, EndpointSpec.infinite?, hswitch, bind, Except.bind]
  | several hpaged hseveral =>
      rw [checkEndpoint, EndpointSpec.hook_eq_error hpaged hseveral]
      rfl
  | pageKey hone hoptions hkey =>
      rw [checkEndpoint_infinite (EndpointSpec.hook_of_paged hone hoptions), if_neg]
      exact fun hmem => hkey (EndpointSpec.mem_paramKeys.1 (List.contains_iff_mem.1 hmem))
  | twoTargets hone hoptions hkey htarget =>
      rw [checkEndpoint, EndpointSpec.hook_of_mutation hone hoptions]
      simp [bind, Except.bind, hkey, htarget]
  | @unknownTarget options target hone hoptions hkey htarget hunknown =>
      have hnone : service.endpoint? target = none := by simpa [endpoint?] using hunknown
      rw [checkEndpoint, EndpointSpec.hook_of_mutation hone hoptions]
      simp [bind, Except.bind, hkey, htarget, hnone]

@[simp] theorem checkEndpoint_eq_ok_iff :
    service.checkEndpoint endpoint = .ok () ↔ service.SoundHook endpoint := by
  refine ⟨fun hcheck => ?_, SoundHook.checkEndpoint_eq⟩
  rcases service.soundHook_or_hookFault endpoint with hsound | ⟨cause, hfault⟩
  · exact hsound
  · rw [hfault.checkEndpoint_eq] at hcheck
    cases hcheck

@[simp] theorem checkEndpoint_eq_error_iff {cause : Error} :
    service.checkEndpoint endpoint = .error cause ↔ service.HookFault endpoint cause := by
  refine ⟨fun hcheck => ?_, HookFault.checkEndpoint_eq⟩
  rcases service.soundHook_or_hookFault endpoint with hsound | ⟨cause', hfault⟩
  · rw [hsound.checkEndpoint_eq] at hcheck
    cases hcheck
  · obtain rfl := Except.error.inj (hfault.checkEndpoint_eq.symm.trans hcheck)
    exact hfault

/-! ## The check of a service -/

/-- What is wrong with an endpoint behind others whose names are given: its name is one of theirs,
or it has no sound hook. -/
def EndpointFault (service : ServiceSpec) (name : String) (earlier : List String)
    (endpoint : EndpointSpec) (e : Error) : Prop :=
  endpoint.name ∈ earlier ∧ e = .duplicateEndpoint name endpoint.name ∨
    endpoint.name ∉ earlier ∧
      ∃ cause, service.HookFault endpoint cause ∧ e = .inEndpoint endpoint.name cause

theorem EndpointFault.congr {name : String} {earlier earlier' : List String} {e : Error}
    (h : service.EndpointFault name earlier endpoint e)
    (hnames : endpoint.name ∈ earlier ↔ endpoint.name ∈ earlier') :
    service.EndpointFault name earlier' endpoint e := by
  unfold EndpointFault at h ⊢
  rwa [← hnames]

theorem checkEndpoints_cons_eq_error_iff {name : String} {earlier : List String}
    {rest : List EndpointSpec} {e : Error} :
    service.checkEndpoints name earlier (endpoint :: rest) = .error e ↔
      service.EndpointFault name earlier endpoint e ∨
        endpoint.name ∉ earlier ∧ service.checkEndpoint endpoint = .ok () ∧
          service.checkEndpoints name (endpoint.name :: earlier) rest = .error e := by
  rw [EndpointFault, checkEndpoints, List.contains_eq_mem]
  by_cases hearlier : endpoint.name ∈ earlier
  · simp [hearlier, eq_comm]
  · cases hcheck : service.checkEndpoint endpoint with
    | error cause =>
        have hfault : ∀ cause', service.HookFault endpoint cause' ↔ cause = cause' := by
          intro cause'
          rw [← checkEndpoint_eq_error_iff, hcheck, Except.error.injEq]
        simp [hearlier, Outcome.inEndpoint, Except.mapError, hfault, eq_comm]
    | ok result =>
        have hsound := checkEndpoint_eq_ok_iff.1 hcheck
        have hnone : ∀ cause, ¬ service.HookFault endpoint cause :=
          fun cause hfault => hfault.not_soundHook hsound
        simp [hearlier, Outcome.inEndpoint, Except.mapError, hnone]

/-- A check of endpoints gives the error of the first one with a fault; those in front pass. -/
theorem checkEndpoints_eq_error_iff {name : String} {earlier : List String}
    {endpoints : List EndpointSpec} {e : Error} :
    service.checkEndpoints name earlier endpoints = .error e ↔
      ∃ front endpoint back, endpoints = front ++ endpoint :: back ∧
        service.checkEndpoints name earlier front = .ok () ∧
        service.EndpointFault name (front.map EndpointSpec.name ++ earlier) endpoint e := by
  induction endpoints generalizing earlier with
  | nil => simp [checkEndpoints]
  | cons first endpoints ih =>
      rw [checkEndpoints_cons_eq_error_iff, ih]
      constructor
      · rintro (hfault | ⟨hnew, hcheck, front, endpoint, back, rfl, hfront, hfault⟩)
        · exact ⟨[], first, endpoints, rfl, rfl, hfault⟩
        · exact ⟨first :: front, endpoint, back, rfl,
            checkEndpoints_cons_eq_ok_iff.2 ⟨hnew, hcheck, hfront⟩,
            hfault.congr List.perm_middle.mem_iff⟩
      · rintro ⟨front, endpoint, back, hsplit, hfront, hfault⟩
        cases front with
        | nil =>
            obtain ⟨rfl, rfl⟩ := List.cons.inj hsplit
            exact .inl hfault
        | cons first' front =>
            obtain ⟨rfl, rfl⟩ := List.cons.inj hsplit
            obtain ⟨hnew, hcheck, hrest⟩ := checkEndpoints_cons_eq_ok_iff.1 hfront
            exact .inr ⟨hnew, hcheck, front, endpoint, back, rfl, hrest,
              hfault.congr List.perm_middle.mem_iff.symm⟩

/-- A service passes its check exactly if its endpoints have names of their own and sound hooks.
Otherwise the error is that of the first endpoint whose name stands further in front or whose hook
is not sound: for the name as it is, and else that of the fault of the hook, with the name of the
endpoint around it. -/
theorem validate_outcome (service : ServiceSpec) (name : String) :
    (service.validate name = .ok () ↔ (service.endpoints.map EndpointSpec.name).Nodup ∧
      ∀ endpoint ∈ service.endpoints, service.SoundHook endpoint) ∧
    (∀ e, service.validate name = .error e ↔
      ∃ front endpoint back, service.endpoints = front ++ endpoint :: back ∧
        (front.map EndpointSpec.name).Nodup ∧ (∀ earlier ∈ front, service.SoundHook earlier) ∧
        (endpoint.name ∈ front.map EndpointSpec.name ∧ e = .duplicateEndpoint name endpoint.name ∨
          endpoint.name ∉ front.map EndpointSpec.name ∧
            ∃ cause, service.HookFault endpoint cause ∧ e = .inEndpoint endpoint.name cause)) ∧
    ∀ endpoint, (∃ cause, service.HookFault endpoint cause) ↔ ¬ service.SoundHook endpoint := by
  refine ⟨?_, fun e => ?_, fun endpoint => ⟨?_, fun hnot => ?_⟩⟩
  · simp only [validate_eq_ok_iff, checkEndpoint_eq_ok_iff]
  · simp only [validate, checkEndpoints_eq_error_iff, checkEndpoints_eq_ok_iff,
      checkEndpoint_eq_ok_iff, List.append_nil, List.not_mem_nil, not_false_eq_true, implies_true,
      true_and, and_assoc, EndpointFault]
  · rintro ⟨cause, hfault⟩
    exact hfault.not_soundHook
  · exact (service.soundHook_or_hookFault endpoint).resolve_left hnot

end ServiceSpec

end ClientLoom
