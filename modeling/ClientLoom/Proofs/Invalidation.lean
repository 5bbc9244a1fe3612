import ClientLoom.Proofs.HookInputs
import ClientLoom.Proofs.ServiceChecks
import ClientLoom.Proofs.StringLiterals

/-!
# What a mutation makes stale

A mutation may name an endpoint of its service whose cached results become stale when it settles.  The
key that it invalidates and the cache keys of queries are written apart from one another.  In a service
that passes its checks the invalidated key is the beginning of the cache keys of the named endpoint,
and of no other one: names are not used twice, and no literal is the beginning of another one.
-/

namespace ClientLoom

open Text (stringLiteral)
open StringLiteral (Denotes denotes_stringLiteral)

/-- The plan is that of the hook of the endpoint, for some service, with the request that is built for
the endpoint. -/
def HookPlan.PlannedFor (plan : HookPlan) (endpoint : EndpointSpec) : Prop :=
  ∃ ident types request, Request.build endpoint types = .ok request ∧
    HookPlan.build ⟨ident, types, request⟩ endpoint = .ok (some plan)

namespace HookPlan.PlannedFor

variable {plan : HookPlan} {endpoint : EndpointSpec}

/-- The cache key of a query that sets none begins with the name of the endpoint. -/
theorem queryKey_iff (h : plan.PlannedFor endpoint) {fetch : Fetch} (hfetch : endpoint.Fetches fetch)
    (hkey : fetch.queryKey = none) :
    ∃ others, ∀ value, ("queryKey", value) ∈ plan.options ↔
      value = "[" ++ ", ".intercalate (stringLiteral endpoint.name :: others) ++ "]" := by
  obtain ⟨ident, types, request, hrequest, hbuild⟩ := h
  obtain ⟨plan', hbuild', hplan⟩ := exists_plansFetch ⟨ident, types, request⟩ hfetch
  obtain rfl : plan = plan' := Option.some.inj (Except.ok.inj (hbuild.symm.trans hbuild'))
  refine ⟨types.declaredInputs.map fun input =>
    "JSON.stringify(" ++ (fetch.keyed input).code ++ ")", fun value => ?_⟩
  rw [hplan.queryKey value, hkey, ← Request.name_of_build hrequest]
  rfl

/-- A mutation that names an endpoint and no key makes the key of the name stale. -/
theorem onSettled_iff (h : plan.PlannedFor endpoint) {options : MutationOptions} {target : String}
    (hhook : endpoint.hook = .ok (.mutation options)) (hkey : options.invalidateQueryKey = none)
    (htarget : options.invalidateEndpoint = some target) :
    ∀ value, ("onSettled", value) ∈ plan.options ↔
      value = "() => \x7b\n      queryClient.invalidateQueries(\x7b queryKey: [" ++
        stringLiteral target ++ "] \x7d);\n    \x7d" := by
  obtain ⟨ident, types, request, -, hbuild⟩ := h
  obtain ⟨plan', hbuild', hplan⟩ := exists_plansMutation ⟨ident, types, request⟩ hhook
  obtain rfl : plan = plan' := Option.some.inj (Except.ok.inj (hbuild.symm.trans hbuild'))
  intro value
  have hstale : staleKey? options = some ("[" ++ stringLiteral target ++ "]") := by
    simp [staleKey?, hkey, htarget, listCode]
  have hsettled : settled ("[" ++ stringLiteral target ++ "]") =
      "() => \x7b\n      queryClient.invalidateQueries(\x7b queryKey: [" ++
        stringLiteral target ++ "] \x7d);\n    \x7d" := by
    unfold settled
    exact String.toList_inj.1 (by simp)
  rw [hplan.onSettled value, hstale, Option.map_some, hsettled, Option.some.injEq, eq_comm]

end HookPlan.PlannedFor

/-- A list that begins with a literal does not begin with a literal of another text. -/
theorem not_prefix_of_denotes {element first text other : String} (h : Denotes element text)
    (hfirst : Denotes first other) (hne : other ≠ text) (others : List String) :
    ¬ ("[" ++ element).toList <+: ("[" ++ ", ".intercalate (first :: others) ++ "]").toList := by
  intro hbegins
  -- Behind the bracket both texts begin with a literal, and a literal is read in one way only.
  obtain ⟨behind, hbehind⟩ := Request.exists_intercalate_eq first others
  have hlist : ("[" ++ ", ".intercalate (first :: others) ++ "]").toList =
      '[' :: (first.toList ++ (behind.toList ++ [']'])) := by
    rw [hbehind]
    simp
  have helement : ("[" ++ element).toList = '[' :: element.toList := by simp
  rw [hlist, helement, List.cons_prefix_cons] at hbegins
  exact hne (h.eq_of_begins hfirst hbegins.2).symm

/-- For a service that passes its checks and an endpoint with a mutation that names `target` as stale.
There is one endpoint of this name, and a literal of the name is the only element of the key that the
mutation invalidates when it settles.  If that endpoint has a query, paginated or not, that does not
set its cache key, the literal is the first element of the key.  The cache key of a query of any other
endpoint, if it does not set it, begins with a literal of another name, and not with this one. -/
theorem HookPlan.invalidates_only_target {service : ServiceSpec} {name : String}
    (hvalid : service.validate name = .ok ()) {endpoint : EndpointSpec}
    (hendpoint : endpoint ∈ service.endpoints) {options : MutationOptions}
    (hhook : endpoint.hook = .ok (.mutation options)) {target : String}
    (htarget : options.invalidateEndpoint = some target) :
    ∃ front invalidated back element, service.endpoints = front ++ invalidated :: back ∧
      invalidated.name = target ∧ (∀ other ∈ front ++ back, other.name ≠ target) ∧
      Denotes element target ∧
      (∀ plan : HookPlan, plan.PlannedFor endpoint → ∀ value,
        ("onSettled", value) ∈ plan.options ↔
          value = "() => \x7b\n      queryClient.invalidateQueries(\x7b queryKey: [" ++ element ++
            "] \x7d);\n    \x7d") ∧
      (∀ fetch, invalidated.Fetches fetch → fetch.queryKey = none →
        ∀ plan : HookPlan, plan.PlannedFor invalidated → ∃ others, ∀ value,
          ("queryKey", value) ∈ plan.options ↔
            value = "[" ++ ", ".intercalate (element :: others) ++ "]") ∧
      ∀ other ∈ front ++ back, ∀ fetch, other.Fetches fetch → fetch.queryKey = none →
        ∀ plan : HookPlan, plan.PlannedFor other → ∃ first others, Denotes first other.name ∧
          (∀ value, ("queryKey", value) ∈ plan.options ↔
            value = "[" ++ ", ".intercalate (first :: others) ++ "]") ∧
          ∀ value, ("queryKey", value) ∈ plan.options →
            ¬ ("[" ++ element).toList <+: value.toList := by
  obtain ⟨hnames, hchecks⟩ := ServiceSpec.validate_eq_ok_iff.1 hvalid
  obtain ⟨hone, hexists⟩ :=
    (ServiceSpec.checkEndpoint_mutation_iff hhook).1 (hchecks endpoint hendpoint)
  obtain ⟨invalidated, hinvalidated, rfl⟩ := hexists target htarget
  obtain ⟨front, back, hsplit, hothers⟩ := ServiceSpec.exists_split_of_nodup hnames hinvalidated
  -- A key beside the name would be invalidated in its place, but the check lets only one of them pass.
  have hkey : options.invalidateQueryKey = none := by
    rcases hone with hkey | hnone
    · exact hkey
    · rw [htarget] at hnone
      cases hnone
  have helement := denotes_stringLiteral invalidated.name
  refine ⟨front, invalidated, back, _, hsplit, rfl, hothers, helement, ?_, ?_, ?_⟩
  · exact fun plan hplan => hplan.onSettled_iff hhook hkey htarget
  · exact fun fetch hfetch hnone plan hplan => hplan.queryKey_iff hfetch hnone
  · intro other hother fetch hfetch hnone plan hplan
    obtain ⟨others, hvalues⟩ := hplan.queryKey_iff hfetch hnone
    refine ⟨_, others, denotes_stringLiteral other.name, hvalues, fun value hvalue => ?_⟩
    rw [(hvalues value).1 hvalue]
    exact not_prefix_of_denotes helement (denotes_stringLiteral other.name) (hothers other hother)
      others

/-- A mutation that makes a query stale whose name has a quote, beside one whose name is the text of
the first one in a literal. -/
def savingNotes : EndpointSpec :=
  { method := .post
    name := "save"
    path := "/"
    useMutation := some (.options { invalidateEndpoint := some "it's" }) }

/-- A service with the mutation and both queries. -/
def quotedNotes : ServiceSpec :=
  { baseUrl := "/"
    endpoints := [
      savingNotes,
      { method := .get, name := "it\\'s", path := "/", useQuery := some (.enabled true) },
      { method := .get, name := "it's", path := "/", useQuery := some (.enabled true) }] }

theorem HookPlan.invalidates_only_target_quotedNotes :
    ∃ front invalidated back element, quotedNotes.endpoints = front ++ invalidated :: back ∧
      invalidated.name = "it's" ∧ (∀ other ∈ front ++ back, other.name ≠ "it's") ∧
      Denotes element "it's" ∧
      ∃ plan : HookPlan, plan.PlannedFor savingNotes ∧
        ("onSettled", "() => \x7b\n      queryClient.invalidateQueries(\x7b queryKey: [" ++ element ++
          "] \x7d);\n    \x7d") ∈ plan.options := by
  have hvalid : quotedNotes.validate "todo" = .ok () := rfl
  obtain ⟨front, invalidated, back, element, hsplit, hname, hothers, hdenotes, hsettled, -, -⟩ :=
    HookPlan.invalidates_only_target hvalid (List.mem_cons_self : savingNotes ∈ _)
      (rfl : savingNotes.hook = .ok (.mutation _)) rfl
  have hbuilt : ((EndpointTypes.infer savingNotes).bind (Request.build savingNotes)).toOption.map
      Request.name = some "save" := by
    decide +kernel
  obtain ⟨types, request, -, hrequest, -⟩ := exists_of_toOption_bind hbuilt
  have hplanned : (mutation ⟨.ofKey "todo", types, request⟩ _).PlannedFor savingNotes :=
    ⟨.ofKey "todo", types, request, hrequest, rfl⟩
  exact ⟨front, invalidated, back, element, hsplit, hname, hothers, hdenotes, _, hplanned,
    (hsettled _ hplanned _).2 rfl⟩

end ClientLoom
