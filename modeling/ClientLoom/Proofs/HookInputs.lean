import ClientLoom.HookPlan
import ClientLoom.Proofs.DeclarationOrder
import ClientLoom.Proofs.GeneratedPaths
import ClientLoom.Proofs.ParameterPlaces

/-!
# The inputs of requests and hooks

A request takes the parameters and the body of its endpoint, as far as they are given.  A hook takes
the same inputs in the same order and passes them on to the request, and a query puts all of them in
its cache key.  A paginated query leaves the page out of the parameters that it takes and of those in
the cache key, and puts it in again for the request.
-/

namespace ClientLoom

open Text (objectKey stringLiteral)

/-! ## Inputs of an endpoint -/

/-- What an input of a request is. -/
inductive InputRole
  | params
  | body
deriving DecidableEq

/-- An input of a request with the declared name of its type. -/
structure DeclaredInput where
  role : InputRole
  type : String
deriving DecidableEq

/-- The name of an input. -/
def DeclaredInput.name (input : DeclaredInput) : String :=
  match input.role with
  | .params => "params"
  | .body => "body"

/-- An input in a list of typed parameters. -/
def DeclaredInput.typed (input : DeclaredInput) : String :=
  input.name ++ ": " ++ input.type

/-- The names of the inputs of an endpoint: its parameters, then its body. -/
def EndpointSpec.inputNames (endpoint : EndpointSpec) : List String :=
  (if endpoint.params.isSome then ["params"] else []) ++
    (if endpoint.body.isSome then ["body"] else [])

theorem Json.eq_object_of_fields? {sample : Json} {entries : Entries Json}
    (h : sample.fields? = some entries) : sample = .object entries := by
  cases sample with
  | object entries' => rw [Option.some.inj h]
  | null | bool _ | number _ | string _ | array _ => cases h

/-- The root of the type of an example is an object only if the example is one, and then it has a
field for every entry. -/
theorem Inferred.rootFields?_cases {inferred : Inferred} {sample : Json}
    (h : HasShape inferred.root (Shape.ofJson sample)) :
    (sample.fields? = none ∧ inferred.rootFields? = none) ∨
      ∃ entries fields, sample = .object entries ∧ inferred.rootFields? = some fields ∧
        FieldsHaveShape fields (Shape.ofFields entries) := by
  cases hsample : sample.fields? with
  | none =>
      refine .inl ⟨rfl, h.fields?_eq_none fun fields hshape => ?_⟩
      have hnone := Shape.fields?_ofJson sample
      rw [hshape, hsample] at hnone
      cases hnone
  | some entries =>
      obtain rfl := Json.eq_object_of_fields? hsample
      rw [Shape.ofJson] at h
      rw [rootFields?]
      generalize inferred.root = root at h ⊢
      cases h with
      | object hfields => exact .inr ⟨entries, _, rfl, rfl, hfields⟩

namespace EndpointTypes

/-- The inputs of an endpoint with these types: its parameters, then its body. -/
def declaredInputs (types : EndpointTypes) : List DeclaredInput :=
  (types.paramsName.map (DeclaredInput.mk .params)).toList ++
    (types.bodyName.map (DeclaredInput.mk .body)).toList

/-- The keys of the parameters, if their type is an object. -/
def paramKeys (types : EndpointTypes) : List String :=
  ((types.params.bind Inferred.rootFields?).getD []).map Field.key

variable {endpoint : EndpointSpec} {types : EndpointTypes}

theorem map_name_declaredInputs (hparams : types.params.isSome = endpoint.params.isSome)
    (hbody : types.body.isSome = endpoint.body.isSome) :
    types.declaredInputs.map DeclaredInput.name = endpoint.inputNames := by
  rw [EndpointSpec.inputNames, ← hparams, ← hbody, declaredInputs, paramsName, bodyName]
  cases types.params with
  | none | some params =>
      cases types.body with
      | none | some body => rfl

theorem type_mem_roleNames {input : DeclaredInput} (h : input ∈ types.declaredInputs) :
    input.type ∈ types.roleNames := by
  rw [roleNames, List.mem_append, List.mem_append]
  rcases List.mem_append.1 h with h | h
  · obtain ⟨name, hname, rfl⟩ := Option.map_eq_some_iff.1 (Option.mem_toList.1 h)
    exact .inl (.inl (Option.mem_toList.2 hname))
  · obtain ⟨name, hname, rfl⟩ := Option.map_eq_some_iff.1 (Option.mem_toList.1 h)
    exact .inl (.inr (Option.mem_toList.2 hname))

/-- There is a type exactly if there is an example, and it has the shape of the example. -/
def OfSample : Option Inferred → Option Json → Prop :=
  Option.Rel fun inferred sample => HasShape inferred.root (Shape.ofJson sample)

theorem OfSample.isSome_eq {inferred : Option Inferred} {sample : Option Json}
    (h : OfSample inferred sample) : inferred.isSome = sample.isSome := by
  cases h with
  | none | some _ => rfl

open Walk (Returns returns_true returns_pure)

theorem returns_role_ofSample (base suffix field : String) (sample : Option Json) :
    Returns (role base suffix field sample) fun inferred => OfSample inferred sample := by
  cases sample with
  | none => exact returns_pure .none
  | some sample =>
      rw [role, map_eq_pure_bind]
      exact (Inferred.returns_hasShape sample _ field).bind fun inferred hshape =>
        returns_pure (.some hshape)

theorem returns_walk_ofSample (endpoint : EndpointSpec) :
    Returns (walk endpoint) fun types =>
      OfSample types.params endpoint.params ∧ OfSample types.body endpoint.body := by
  rw [walk]
  refine (returns_role_ofSample _ "Params" "params" endpoint.params).bind fun params hparams => ?_
  refine (returns_role_ofSample _ "Body" "body" endpoint.body).bind fun body hbody => ?_
  exact (returns_true _).bind fun response _ => returns_pure ⟨hparams, hbody⟩

theorem paramKeys_eq (h : OfSample types.params endpoint.params) :
    types.paramKeys = endpoint.paramKeys := by
  rw [paramKeys, EndpointSpec.paramKeys]
  generalize types.params = params, endpoint.params = sample? at h ⊢
  cases h with
  | none => rfl
  | @some inferred sample hshape =>
      rcases Inferred.rootFields?_cases hshape with ⟨hsample, hroot⟩ |
        ⟨entries, fields, rfl, hroot, hfields⟩
      · simp [hsample, hroot, Entries.keys]
      · simpa [hroot, Json.fields?] using hfields.map_key.trans (Shape.map_key_ofFields entries)

end EndpointTypes

/-! ## Expressions over the inputs -/

/-- An expression of the generated code over an input. -/
inductive InputExpr
  | input (name : String)
  /-- The expression with a type, which leaves its value as it is. -/
  | cast (expr : InputExpr) (type : String)
  | bracketed (expr : InputExpr)
  /-- The fields of an object, with the page in the place of the key. -/
  | withPage (object : InputExpr) (key : String)
  /-- The fields of an object other than that of the key. -/
  | without (object : InputExpr) (key : String)

namespace InputExpr

/-- The text of an expression. -/
def code : InputExpr → String
  | input name => name
  | cast expr type => expr.code ++ " as " ++ type
  | bracketed expr => "(" ++ expr.code ++ ")"
  | withPage object key => "\x7b ..." ++ object.code ++ ", " ++ objectKey key ++ ": pageParam \x7d"
  | without object key =>
    "Object.fromEntries(Object.entries(" ++ object.code ++ ").filter(([key]) => key !== " ++
      stringLiteral key ++ "))"

/-- The value of an expression, for values of the inputs and a page.  What the fields of something
else than an object are is left open, and a key that would name the prototype is left aside. -/
def value? (given : String → Json) (page : Json) : InputExpr → Option Json
  | input name => some (given name)
  | cast expr _ | bracketed expr => expr.value? given page
  | withPage object key =>
    ((object.value? given page).bind Json.fields?).map fun fields =>
      .object (Entries.put fields key page)
  | without object key =>
    ((object.value? given page).bind Json.fields?).map fun fields =>
      .object (fields.filter fun field => field.1 != key)

end InputExpr

/-- The call of the method of an endpoint on the instance of its service. -/
def methodCall (ident : ServiceIdent) (name : String) (arguments : List String) : String :=
  ident.instanceName ++ "." ++ name ++ "(" ++ ", ".intercalate arguments ++ ")"

/-! ## Queries -/

/-- What a query and a paginated query have in common. -/
structure Fetch where
  strict : Bool
  /-- The key of the page and the first page, if the query is paginated. -/
  page? : Option (String × Json)
  queryKey : Option String
  queryFn : Option String
  enabled : Option String

namespace Fetch

/-- A query that is not paginated. -/
def ofQuery (options : QueryOptions) : Fetch :=
  ⟨options.strictParams, none, options.queryKey, options.queryFn, options.enabled⟩

/-- A paginated query. -/
def ofInfinite (options : InfiniteOptions) : Fetch :=
  ⟨options.strictParams, some (options.pageKey, options.initialPageParam), options.queryKey,
    options.queryFn, options.enabled⟩

end Fetch

/-- The hook of the endpoint is this query, paginated or not. -/
inductive EndpointSpec.Fetches (endpoint : EndpointSpec) : Fetch → Prop
  | query {options : QueryOptions} (h : endpoint.hook = .ok (.query options)) :
      Fetches endpoint (.ofQuery options)
  | infinite {options : InfiniteOptions} (h : endpoint.hook = .ok (.infinite options)) :
      Fetches endpoint (.ofInfinite options)

namespace Fetch

variable (fetch : Fetch)

/-- The key of the page, if the query is paginated. -/
def pageKey? : Option String :=
  fetch.page?.map Prod.fst

/-- The key of the page in an input: the page is one of the parameters. -/
def pageKeyOf (input : DeclaredInput) : Option String :=
  match input.role with
  | .params => fetch.pageKey?
  | .body => none

/-- The parameters of a hook in front of its inputs. -/
def leading : List String :=
  (fetch.page?.map fun page => "initialPageParam = " ++ HookPlan.firstPage page.2).toList

/-- The parameters of the function that performs the request. -/
def arrow : String :=
  if fetch.page?.isSome then "(\x7b pageParam \x7d) => " else "() => "

/-- The type of an input of a hook: every field may be absent unless the hook is strict. -/
def typeCode (input : DeclaredInput) : String :=
  if fetch.strict then input.type else "Partial<" ++ input.type ++ ">"

/-- An input in the parameter list of a hook, where `keys` are those of the parameters.  The page is
left out, and parameters that may have nothing else need not be given. -/
def taken (keys : List String) (input : DeclaredInput) : String :=
  match fetch.pageKeyOf input with
  | none => input.name ++ ": " ++ fetch.typeCode input
  | some key =>
    input.name ++ ": Omit<" ++ fetch.typeCode input ++ ", " ++ stringLiteral key ++ ">" ++
      if keys.any (· != key) then "" else " = \x7b\x7d"

/-- An input as it is passed on to the request, under its own type and with the page. -/
def passed (input : DeclaredInput) : InputExpr :=
  match fetch.pageKeyOf input, fetch.strict with
  | none, true => .input input.name
  | none, false => .cast (.input input.name) input.type
  | some key, true => .withPage (.input input.name) key
  | some key, false => .withPage (.bracketed (.cast (.input input.name) input.type)) key

/-- What the cache key has of an input: all but the page. -/
def keyed (input : DeclaredInput) : InputExpr :=
  match fetch.pageKeyOf input with
  | none => .input input.name
  | some key => .without (.input input.name) key

/-- The cache key of a query that sets none. -/
def cacheKey (name : String) (inputs : List DeclaredInput) : String :=
  "[" ++ ", ".intercalate (stringLiteral name ::
    inputs.map fun input => "JSON.stringify(" ++ (fetch.keyed input).code ++ ")") ++ "]"

/-- The function that performs the request of a query that sets none. -/
def fetcher (ident : ServiceIdent) (name : String) (inputs : List DeclaredInput) : String :=
  fetch.arrow ++ methodCall ident name (inputs.map fun input => (fetch.passed input).code)

/-- The cache key has of an input what the request gets of it, but for the page. -/
def Covers (input : DeclaredInput) : Prop :=
  ∀ (given : String → Json) (page : Json),
    match fetch.pageKeyOf input with
    | none =>
      (fetch.keyed input).value? given page = some (given input.name) ∧
        (fetch.passed input).value? given page = some (given input.name)
    | some key =>
      ∀ fields, given input.name = .object fields → ∃ kept sent,
        (fetch.keyed input).value? given page = some (.object kept) ∧
          (fetch.passed input).value? given page = some (.object sent) ∧
          Entries.get? key kept = none ∧ Entries.get? key sent = some page ∧
          ∀ other, other ≠ key → Entries.get? other kept = Entries.get? other fields ∧
            Entries.get? other sent = Entries.get? other fields

theorem covers (input : DeclaredInput) : fetch.Covers input := by
  intro given page
  unfold keyed passed
  cases fetch.pageKeyOf input with
  | none =>
      refine ⟨rfl, ?_⟩
      cases fetch.strict with
      | false | true => rfl
  | some key =>
      intro fields hfields
      refine ⟨fields.filter fun field => field.1 != key, Entries.put fields key page, ?_, ?_, ?_,
        ?_, fun other hother => ?_⟩
      · simp [InputExpr.value?, hfields, Json.fields?]
      · cases fetch.strict with
        | false | true => simp [InputExpr.value?, hfields, Json.fields?]
      · rw [Entries.get?_filter_ne, if_pos rfl]
      · rw [Entries.get?_put, if_pos rfl]
      · rw [Entries.get?_filter_ne, Entries.get?_put, if_neg hother, if_neg hother]
        exact ⟨rfl, rfl⟩

end Fetch

/-! ## Plans of queries -/

namespace HookPlan

/-- What a query checks of its inputs before it performs the request. -/
def reads (types : EndpointTypes) (fetch : Fetch) : List String :=
  ((types.params.map fun params => requiredReads fetch.pageKey? ⟨"params", params⟩).getD []) ++
    ((types.body.map fun body => requiredReads none ⟨"body", body⟩).getD [])

/-- The plan is that of the query: it takes the inputs of the request, and what the query does not
set itself is made of them. -/
structure PlansFetch (plan : HookPlan) (context : HookContext) (fetch : Fetch) : Prop where
  signature : plan.signature = ", ".intercalate
    (fetch.leading ++ context.types.declaredInputs.map (fetch.taken context.types.paramKeys))
  queryKey : ∀ value, ("queryKey", value) ∈ plan.options ↔
    value = fetch.queryKey.getD (fetch.cacheKey context.request.name context.types.declaredInputs)
  queryFn : ∀ value, ("queryFn", value) ∈ plan.options ↔ value = fetch.queryFn.getD
    (fetch.fetcher context.service context.request.name context.types.declaredInputs)
  enabled : ∀ value, ("enabled", value) ∈ plan.options ↔
    (fetch.enabled <|> enablement (reads context.types fetch)) = some value

theorem map_declaredInputs {α : Type} (types : EndpointTypes) (f : DeclaredInput → α) :
    types.declaredInputs.map f =
      (types.params.map fun params => f ⟨.params, params.name⟩).toList ++
        (types.body.map fun body => f ⟨.body, body.name⟩).toList := by
  simp [EndpointTypes.declaredInputs, EndpointTypes.paramsName, EndpointTypes.bodyName,
    Option.toList_map, Function.comp_def]

theorem map_inputs {α : Type} (types : EndpointTypes) (f : Input → α) :
    (inputs types).map f = (types.params.map fun params => f ⟨"params", params⟩).toList ++
      (types.body.map fun body => f ⟨"body", body⟩).toList := by
  simp [inputs, Option.toList_map, Function.comp_def]

/-! An input without a page is taken, kept in the cache key and passed on as a whole. -/

section Whole

variable {fetch : Fetch} {role : InputRole} {type : Inferred}

theorem taken_whole (h : fetch.pageKeyOf ⟨role, type.name⟩ = none) (keys : List String) :
    fetch.taken keys ⟨role, type.name⟩ =
      DeclaredInput.name ⟨role, type.name⟩ ++ ": " ++ inputType fetch.strict type.name := by
  simp only [Fetch.taken, h]
  rfl

theorem keyed_whole (h : fetch.pageKeyOf ⟨role, type.name⟩ = none) :
    "JSON.stringify(" ++ (fetch.keyed ⟨role, type.name⟩).code ++ ")" =
      keyCode (DeclaredInput.name ⟨role, type.name⟩) := by
  simp only [Fetch.keyed, h]
  rfl

theorem passed_whole (h : fetch.pageKeyOf ⟨role, type.name⟩ = none) :
    (fetch.passed ⟨role, type.name⟩).code =
      passed fetch.strict ⟨DeclaredInput.name ⟨role, type.name⟩, type⟩ := by
  cases hstrict : fetch.strict with
  | false | true =>
      simp only [Fetch.passed, h, hstrict]
      rfl

end Whole

theorem plansFetch_query (context : HookContext) (options : QueryOptions) :
    (query context options).PlansFetch context (.ofQuery options) := by
  have hparams (type : Inferred) :
      (Fetch.ofQuery options).pageKeyOf ⟨.params, type.name⟩ = none := rfl
  have hbody (type : Inferred) :
      (Fetch.ofQuery options).pageKeyOf ⟨.body, type.name⟩ = none := rfl
  -- Each text is brought into the form in which it is planned before the options are searched for
  -- it: texts of different forms are compared character by character, which takes long.
  have hkey : (Fetch.ofQuery options).cacheKey context.request.name context.types.declaredInputs =
      listCode (stringLiteral context.request.name ::
        (inputs context.types).map fun input => keyCode input.name) := by
    rw [Fetch.cacheKey, listCode, map_declaredInputs, map_inputs]
    simp only [keyed_whole (hparams _), keyed_whole (hbody _)]
    rfl
  have hfetcher : (Fetch.ofQuery options).fetcher context.service context.request.name
      context.types.declaredInputs =
      "() => " ++ requestCode context
        ((inputs context.types).map (passed options.strictParams)) := by
    rw [Fetch.fetcher, map_declaredInputs, map_inputs]
    simp only [passed_whole (hparams _), passed_whole (hbody _)]
    rfl
  have hreads : reads context.types (.ofQuery options) =
      (inputs context.types).flatMap (requiredReads none) := by
    rw [reads, inputs]
    cases context.types.params with
    | none | some params =>
        cases context.types.body with
        | none | some body => simp [Fetch.pageKey?, Fetch.ofQuery]
  constructor
  · simp only [map_declaredInputs, taken_whole (hparams _), taken_whole (hbody _), query, ofDraft,
      map_inputs]
    rfl
  · intro value
    rw [hkey]
    simp [query, ofDraft, Fetch.ofQuery]
  · intro value
    rw [hfetcher]
    simp [query, ofDraft, Fetch.ofQuery]
  · intro value
    rw [hreads]
    simp [query, ofDraft, Fetch.ofQuery]

/-! Parameters with a page are taken and kept in the cache key without it, and passed on with it. -/

section Paged

variable (options : InfiniteOptions) (params : Inferred)

theorem pagedSignature_eq {types : EndpointTypes} (h : types.params = some params) :
    pagedSignature options params =
      (Fetch.ofInfinite options).taken types.paramKeys ⟨.params, params.name⟩ := by
  have hkeys : types.paramKeys = (params.rootFields?.getD []).map Field.key := by
    rw [EndpointTypes.paramKeys, h, Option.bind_some]
  obtain ⟨others, hsignature, hothers⟩ : ∃ others : Bool,
      pagedSignature options params =
        "params: Omit<" ++ inputType options.strictParams params.name ++ ", " ++
          stringLiteral options.pageKey ++ ">" ++ (if others then "" else " = \x7b\x7d") ∧
        others = types.paramKeys.any (· != options.pageKey) := by
    refine ⟨_, rfl, ?_⟩
    rw [hkeys, List.any_map]
    cases params.rootFields? with
    | none | some fields => rfl
  rw [hsignature, hothers]
  rfl

theorem pagedKey_eq :
    pagedKey options =
      "JSON.stringify(" ++ ((Fetch.ofInfinite options).keyed ⟨.params, params.name⟩).code ++
        ")" := by
  have hkeyed : (Fetch.ofInfinite options).keyed ⟨.params, params.name⟩ =
      .without (.input "params") options.pageKey := rfl
  rw [hkeyed]
  -- Both texts have the same characters and are only put together from other pieces.
  unfold pagedKey InputExpr.code InputExpr.code
  exact String.toList_inj.1 (by simp)

theorem pagedArgument_eq :
    pagedArgument options params =
      ((Fetch.ofInfinite options).passed ⟨.params, params.name⟩).code := by
  cases hstrict : options.strictParams with
  | false =>
      have hpassed : (Fetch.ofInfinite options).passed ⟨.params, params.name⟩ =
          .withPage (.bracketed (.cast (.input "params") params.name)) options.pageKey := by
        simp only [Fetch.passed, Fetch.ofInfinite, hstrict]
        rfl
      rw [hpassed]
      unfold pagedArgument InputExpr.code InputExpr.code InputExpr.code InputExpr.code
      exact String.toList_inj.1 (by simp [hstrict])
  | true =>
      have hpassed : (Fetch.ofInfinite options).passed ⟨.params, params.name⟩ =
          .withPage (.input "params") options.pageKey := by
        simp only [Fetch.passed, Fetch.ofInfinite, hstrict]
        rfl
      rw [hpassed]
      unfold pagedArgument InputExpr.code InputExpr.code
      exact String.toList_inj.1 (by simp [hstrict])

end Paged

theorem plansFetch_infinite (context : HookContext) (options : InfiniteOptions) :
    (infinite context options).PlansFetch context (.ofInfinite options) := by
  have hbody (type : Inferred) :
      (Fetch.ofInfinite options).pageKeyOf ⟨.body, type.name⟩ = none := rfl
  have hsignature : context.types.declaredInputs.map
      ((Fetch.ofInfinite options).taken context.types.paramKeys) =
      (context.types.params.map (pagedSignature options)).toList ++
        ((context.types.body.map (Input.mk "body")).toList.map fun input =>
          input.name ++ ": " ++ inputType options.strictParams input.type.name) := by
    rw [map_declaredInputs,
      Option.map_congr fun params hparams => (pagedSignature_eq options params hparams).symm]
    simp only [taken_whole (hbody _), Option.toList_map, List.map_map]
    rfl
  have hkey : (Fetch.ofInfinite options).cacheKey context.request.name
      context.types.declaredInputs =
      listCode (stringLiteral context.request.name ::
        ((context.types.params.map fun _ => pagedKey options).toList ++
          (context.types.body.map (Input.mk "body")).toList.map fun input =>
            keyCode input.name)) := by
    rw [Fetch.cacheKey, listCode, map_declaredInputs]
    simp only [keyed_whole (hbody _), ← pagedKey_eq, Option.toList_map, List.map_map]
    rfl
  have hfetcher : (Fetch.ofInfinite options).fetcher context.service context.request.name
      context.types.declaredInputs =
      "(\x7b pageParam \x7d) => " ++ requestCode context
        ((context.types.params.map (pagedArgument options)).toList ++
          (context.types.body.map (Input.mk "body")).toList.map
            (passed options.strictParams)) := by
    rw [Fetch.fetcher, map_declaredInputs]
    simp only [passed_whole (hbody _), ← pagedArgument_eq, Option.toList_map, List.map_map]
    rfl
  have hreads : reads context.types (.ofInfinite options) =
      (context.types.params.map fun type =>
        requiredReads (some options.pageKey) ⟨"params", type⟩).getD [] ++
        (context.types.body.map (Input.mk "body")).toList.flatMap (requiredReads none) := by
    rw [reads]
    cases context.types.body with
    | none | some body => simp [Fetch.pageKey?, Fetch.ofInfinite]
  constructor
  · rw [hsignature]
    rfl
  · intro value
    rw [hkey]
    simp [infinite, ofDraft, Fetch.ofInfinite]
  · intro value
    rw [hfetcher]
    simp [infinite, ofDraft, Fetch.ofInfinite]
  · intro value
    rw [hreads]
    simp [infinite, ofDraft, Fetch.ofInfinite]

theorem exists_plansFetch (context : HookContext) {endpoint : EndpointSpec} {fetch : Fetch}
    (h : endpoint.Fetches fetch) :
    ∃ plan, build context endpoint = .ok (some plan) ∧ plan.PlansFetch context fetch := by
  cases h with
  | query hhook =>
      refine ⟨query context _, ?_, plansFetch_query context _⟩
      exact bind_eq_ok.2 ⟨_, hhook, rfl⟩
  | infinite hhook =>
      refine ⟨infinite context _, ?_, plansFetch_infinite context _⟩
      exact bind_eq_ok.2 ⟨_, hhook, rfl⟩

/-! ## Plans of mutations -/

/-- The one argument of the function of a mutation, which takes the inputs apart. -/
def destructured (inputs : List DeclaredInput) : String :=
  if inputs.isEmpty then ""
  else "\x7b " ++ ", ".intercalate (inputs.map DeclaredInput.name) ++ " \x7d: \x7b " ++
    "; ".intercalate (inputs.map DeclaredInput.typed) ++ " \x7d"

/-- The plan is that of the mutation. -/
structure PlansMutation (plan : HookPlan) (context : HookContext) (options : MutationOptions) :
    Prop where
  signature : plan.signature = ""
  mutationFn : ∀ value, ("mutationFn", value) ∈ plan.options ↔
    value = options.mutationFn.getD ("(" ++ destructured context.types.declaredInputs ++ ") => " ++
      methodCall context.service context.request.name
        (context.types.declaredInputs.map DeclaredInput.name))
  onSettled : ∀ value, ("onSettled", value) ∈ plan.options ↔
    (staleKey? options).map settled = some value

theorem mutate_eq (context : HookContext) :
    mutate context = "(" ++ destructured context.types.declaredInputs ++ ") => " ++
      methodCall context.service context.request.name
        (context.types.declaredInputs.map DeclaredInput.name) := by
  have hnames : (inputs context.types).map Input.name =
      context.types.declaredInputs.map DeclaredInput.name := by
    rw [map_inputs, map_declaredInputs]
    rfl
  have htyped : ((inputs context.types).map fun input => input.name ++ ": " ++ input.type.name) =
      context.types.declaredInputs.map DeclaredInput.typed := by
    rw [map_inputs, map_declaredInputs]
    rfl
  have hempty : (inputs context.types).isEmpty = context.types.declaredInputs.isEmpty := by
    simpa using congrArg List.isEmpty hnames
  simp only [mutate, destructured, hnames, htyped, hempty]
  split_ifs with hnone
  · rw [List.isEmpty_iff.1 hnone]
    rfl
  · unfold requestCode methodCall
    exact String.toList_inj.1 (by simp)

theorem plansMutation_mutation (context : HookContext) (options : MutationOptions) :
    (mutation context options).PlansMutation context options := by
  constructor
  · rfl
  · intro value
    rw [← mutate_eq]
    unfold mutation ofDraft
    -- Which option is meant is decided by the names, not by the text of another option.
    generalize settled = code
    simp
  · intro value
    unfold mutation ofDraft
    generalize settled = code
    simp

theorem exists_plansMutation (context : HookContext) {endpoint : EndpointSpec}
    {options : MutationOptions} (h : endpoint.hook = .ok (.mutation options)) :
    ∃ plan, build context endpoint = .ok (some plan) ∧ plan.PlansMutation context options :=
  ⟨_, bind_eq_ok.2 ⟨_, h, rfl⟩, plansMutation_mutation context options⟩

/-! ## The same inputs everywhere -/

/-- For an endpoint with the types of its own examples, whatever names were taken before, and the
request built from them.  The inputs are the parameters and the body, as far as they are given, each
with a type that is declared.  The request takes them in this order.  A query takes them in the same
order, behind the first page if it is paginated; unless it sets its function or its cache key itself,
the function passes them on to the method of the endpoint in this order, and the cache key has them in
this order behind the name of the endpoint.  The cache key has of an input all that the method gets of
it; only the page of a paginated query is not in the cache key and comes from the page parameter
instead.  A mutation that does not set its function takes the inputs apart, with their types, and
passes them on, again in this order. -/
theorem inputs_agree {endpoint : EndpointSpec} {types : EndpointTypes} {request : Request}
    {names : TypeNames} (htypes : ((EndpointTypes.walk endpoint).run names).1 = .ok types)
    (hrequest : Request.build endpoint types = .ok request) :
    types.declaredInputs.map DeclaredInput.name = endpoint.inputNames ∧
    (∀ input ∈ types.declaredInputs, input.type ∈ declNames types.declarations) ∧
    request.signature = ", ".intercalate (types.declaredInputs.map DeclaredInput.typed) ∧
    (∀ (service : ServiceIdent) (fetch : Fetch), endpoint.Fetches fetch →
      ∃ plan, build ⟨service, types, request⟩ endpoint = .ok (some plan) ∧
        plan.signature = ", ".intercalate
          (fetch.leading ++ types.declaredInputs.map (fetch.taken endpoint.paramKeys)) ∧
        (fetch.queryFn = none → ∀ value, ("queryFn", value) ∈ plan.options ↔
          value = fetch.arrow ++ methodCall service endpoint.name
            (types.declaredInputs.map fun input => (fetch.passed input).code)) ∧
        (fetch.queryKey = none → ∀ value, ("queryKey", value) ∈ plan.options ↔
          value = "[" ++ ", ".intercalate (stringLiteral endpoint.name ::
            types.declaredInputs.map fun input =>
              "JSON.stringify(" ++ (fetch.keyed input).code ++ ")") ++ "]") ∧
        ∀ input ∈ types.declaredInputs, fetch.Covers input) ∧
    ∀ (service : ServiceIdent) (options : MutationOptions),
      endpoint.hook = .ok (.mutation options) →
        ∃ plan, build ⟨service, types, request⟩ endpoint = .ok (some plan) ∧
          plan.signature = "" ∧
          (options.mutationFn = none → ∀ value, ("mutationFn", value) ∈ plan.options ↔
            value = "(" ++ destructured types.declaredInputs ++ ") => " ++
              methodCall service endpoint.name
                (types.declaredInputs.map DeclaredInput.name)) := by
  obtain ⟨hparams, hbody⟩ := EndpointTypes.returns_walk_ofSample endpoint names types htypes
  have hcomplete := EndpointTypes.returns_walk endpoint names types htypes
  have hname : request.name = endpoint.name := Request.name_of_build hrequest
  obtain ⟨hparamsType, hbodyType, -⟩ := Request.types_of_build hrequest
  refine ⟨EndpointTypes.map_name_declaredInputs hparams.isSome_eq hbody.isSome_eq,
    fun input hinput => ?_, ?_, fun service fetch hfetch => ?_, fun service options hhook => ?_⟩
  · exact EndpointTypes.mem_declNames_of_roleNames hcomplete
      (EndpointTypes.type_mem_roleNames hinput)
  · rw [Request.signature, hparamsType, hbodyType, map_declaredInputs]
    simp only [EndpointTypes.paramsName, EndpointTypes.bodyName, Option.map_map]
    rfl
  · obtain ⟨plan, hbuild, hplan⟩ := exists_plansFetch ⟨service, types, request⟩ hfetch
    have hkeys : types.paramKeys = endpoint.paramKeys := EndpointTypes.paramKeys_eq hparams
    refine ⟨plan, hbuild, ?_, fun hnone value => ?_, fun hnone value => ?_,
      fun input _ => fetch.covers input⟩
    · rw [← hkeys]
      exact hplan.signature
    · rw [hplan.queryFn value, hnone, ← hname]
      rfl
    · rw [hplan.queryKey value, hnone, ← hname]
      rfl
  · obtain ⟨plan, hbuild, hplan⟩ := exists_plansMutation ⟨service, types, request⟩ hhook
    refine ⟨plan, hbuild, hplan.signature, fun hnone value => ?_⟩
    rw [hplan.mutationFn value, hnone, ← hname]
    rfl

/-- An endpoint with a paginated query, whose page key has to be quoted, and a body. -/
def pagedSearch : EndpointSpec :=
  { method := .post
    name := "search"
    path := "/search"
    params := some (.object [("page-no", .ofNat 1), ("q", .string "")])
    body := some (.array [])
    useInfiniteQuery := some (.options
      { pageKey := "page-no", initialPageParam := .ofNat 0, getNextPageParam := "next" }) }

theorem inputs_agree_pagedSearch :
    ∃ types request plan, EndpointTypes.infer pagedSearch = .ok types ∧
      Request.build pagedSearch types = .ok request ∧
      build ⟨.ofKey "todo", types, request⟩ pagedSearch = .ok (some plan) ∧
      request.signature = "params: TSearchParams, body: TSearchBody" ∧
      plan.signature = "initialPageParam = 0, " ++
        "params: Omit<Partial<TSearchParams>, 'page-no'>, body: Partial<TSearchBody>" ∧
      ("queryFn", "(\x7b pageParam \x7d) => todoService.search(" ++
        "\x7b ...(params as TSearchParams), 'page-no': pageParam \x7d, body as TSearchBody)") ∈
          plan.options ∧
      ("queryKey", "['search', JSON.stringify(Object.fromEntries(Object.entries(params)" ++
        ".filter(([key]) => key !== 'page-no'))), JSON.stringify(body)]") ∈ plan.options := by
  have hbuilt : ((EndpointTypes.infer pagedSearch).bind (Request.build pagedSearch)).toOption.map
      (fun request => (request.paramsType, request.bodyType)) =
      some (some "TSearchParams", some "TSearchBody") := by
    decide +kernel
  obtain ⟨types, request, htypes, hrequest, hseen⟩ := exists_of_toOption_bind hbuilt
  have hinputs : types.declaredInputs = [⟨.params, "TSearchParams"⟩, ⟨.body, "TSearchBody"⟩] := by
    obtain ⟨hparams, hbody⟩ := Prod.mk.inj hseen
    obtain ⟨hparamsType, hbodyType, -⟩ := Request.types_of_build hrequest
    rw [EndpointTypes.declaredInputs, ← hparamsType, ← hbodyType, hparams, hbody]
    rfl
  obtain ⟨-, -, hsignature, hfetch, -⟩ := inputs_agree htypes hrequest
  obtain ⟨plan, hplan, htaken, hcalled, hkeyed, -⟩ :=
    hfetch (.ofKey "todo") _ (.infinite (rfl : pagedSearch.hook = .ok (.infinite _)))
  rw [hinputs] at hsignature htaken hcalled hkeyed
  refine ⟨types, request, plan, htypes, hrequest, hplan, hsignature, ?_, ?_, ?_⟩
  · rw [htaken]
    decide +kernel
  · refine (hcalled rfl _).2 ?_
    decide +kernel
  · refine (hkeyed rfl _).2 ?_
    decide +kernel

end HookPlan

end ClientLoom
