import ClientLoom.Spec.Endpoint
import ClientLoom.Text.Casing

/-!
# Services

A base address, the headers of every request, and endpoints.  The class of a service and its only
instance have names made from the key of the service.
-/

namespace ClientLoom

/-- The exported names of a service. -/
structure ServiceIdent where
  className : String
  instanceName : String
deriving DecidableEq

/-- The names of the service with a key. -/
def ServiceIdent.ofKey (key : String) : ServiceIdent :=
  let className := Text.pascalCase key ++ "Service"
  ⟨className, Text.camelCase className⟩

/-- A service as it is configured. -/
structure ServiceSpec where
  baseUrl : String
  headers : OrderedMap String := .empty
  endpoints : List EndpointSpec := []
  topScript : Option String := none

namespace ServiceSpec

/-- The first endpoint with a name. -/
def endpoint? (service : ServiceSpec) (name : String) : Option EndpointSpec :=
  service.endpoints.find? fun endpoint => endpoint.name == name

/-- Checks the hook of an endpoint: a page key is a key of the parameters, and a mutation has at
most one target, which exists. -/
def checkEndpoint (service : ServiceSpec) (endpoint : EndpointSpec) : Outcome Unit := do
  match ← endpoint.hook with
  | .infinite options =>
    if endpoint.paramKeys.contains options.pageKey then .ok ()
    else .error (.validation "useInfiniteQuery.pageKey"
      ("'" ++ options.pageKey ++ "' is not a key of params"))
  | .mutation options =>
    if options.invalidateQueryKey.isSome && options.invalidateEndpoint.isSome then
      .error (.validation "useMutation"
        "set either invalidateQueryKey or invalidateEndpoint, not both")
    else
      match options.invalidateEndpoint with
      | some target =>
        if (service.endpoint? target).isSome then .ok ()
        else .error (.validation "useMutation.invalidateEndpoint"
          ("no endpoint named '" ++ target ++ "' in this service"))
      | none => .ok ()
  | .query _ | .none => .ok ()

/-- Checks endpoints one after the other; `earlier` are the names of those in front. -/
def checkEndpoints (service : ServiceSpec) (name : String) (earlier : List String) :
    List EndpointSpec → Outcome Unit
  | [] => .ok ()
  | endpoint :: rest =>
    if earlier.contains endpoint.name then .error (.duplicateEndpoint name endpoint.name)
    else
      match Outcome.inEndpoint endpoint.name (service.checkEndpoint endpoint) with
      | .error e => .error e
      | .ok () => checkEndpoints service name (endpoint.name :: earlier) rest

/-- Checks a service: every endpoint has a name of its own and a sound hook. -/
def validate (service : ServiceSpec) (name : String) : Outcome Unit :=
  service.checkEndpoints name [] service.endpoints

end ServiceSpec

end ClientLoom
