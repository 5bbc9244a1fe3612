import ClientLoom.Error
import ClientLoom.HttpMethod
import ClientLoom.Spec.Hook

/-!
# Endpoints

One HTTP operation, described by examples of its parameters, body and response.
-/

namespace ClientLoom

/-- An endpoint as it is configured. -/
structure EndpointSpec where
  method : HttpMethod
  name : String
  path : String
  params : Option Json := none
  body : Option Json := none
  response : Option Json := none
  useQuery : Option (Toggle QueryOptions) := none
  useQueryStrictParams : Bool := false
  useInfiniteQuery : Option (Toggle InfiniteOptions) := none
  useMutation : Option (Toggle MutationOptions) := none

namespace EndpointSpec

/-- The options of the query, if it is switched on; either spelling of strictness counts. -/
def query? (endpoint : EndpointSpec) : Option QueryOptions :=
  (endpoint.useQuery.bind (Toggle.options? {})).map fun options =>
    { options with strictParams := options.strictParams || endpoint.useQueryStrictParams }

/-- The options of the mutation, if it is switched on. -/
def mutation? (endpoint : EndpointSpec) : Option MutationOptions :=
  endpoint.useMutation.bind (Toggle.options? {})

/-- The options of the paginated query, if it is given; a bare switch has no page key. -/
def infinite? (endpoint : EndpointSpec) : Outcome (Option InfiniteOptions) :=
  match endpoint.useInfiniteQuery with
  | none | some (.enabled false) => .ok none
  | some (.enabled true) =>
    .error (.validation "useInfiniteQuery" "expected an options object with pageKey")
  | some (.options options) => .ok (some options)

/-- The names of the hooks that are switched on. -/
def declaredHooks (query : Option QueryOptions) (infinite : Option InfiniteOptions)
    (mutation : Option MutationOptions) : List String :=
  (if query.isSome then ["useQuery"] else []) ++
    (if infinite.isSome then ["useInfiniteQuery"] else []) ++
    (if mutation.isSome then ["useMutation"] else [])

/-- The one hook of an endpoint. -/
def hook (endpoint : EndpointSpec) : Outcome Hook := do
  let query := endpoint.query?
  let mutation := endpoint.mutation?
  let infinite ← endpoint.infinite?
  let declared := declaredHooks query infinite mutation
  if 1 < declared.length then
    .error (.conflictingHooks endpoint.name (", ".intercalate declared))
  else
    match query, infinite, mutation with
    | some options, _, _ => .ok (.query options)
    | none, some options, _ => .ok (.infinite options)
    | none, none, some options => .ok (.mutation options)
    | none, none, none => .ok .none

/-- The keys of the parameters, if their example is an object. -/
def paramKeys (endpoint : EndpointSpec) : List String :=
  ((endpoint.params.bind Json.fields?).getD []).keys

end EndpointSpec

end ClientLoom
