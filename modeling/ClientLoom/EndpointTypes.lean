import ClientLoom.Inference
import ClientLoom.Spec.Endpoint

/-!
# Types of an endpoint

The types inferred from the examples of an endpoint, and the types of all endpoints of a service
with the registry that keeps their names apart.
-/

namespace ClientLoom

/-- The types of the parameters, body and response of an endpoint. -/
structure EndpointTypes where
  params : Option Inferred
  body : Option Inferred
  response : Option Inferred

namespace EndpointTypes

/-- The types of one example, if it is given. -/
def role (base suffix field : String) : Option Json → Walk (Option Inferred)
  | none => pure none
  | some sample => some <$> Inferred.walk sample (base ++ suffix) field

/-- Infers the types of an endpoint: parameters, then body, then response. -/
def walk (endpoint : EndpointSpec) : Walk EndpointTypes := do
  let base := "T" ++ Text.pascalCase endpoint.name
  let params ← role base "Params" "params" endpoint.params
  let body ← role base "Body" "body" endpoint.body
  let response ← role base "Response" "response" endpoint.response
  pure ⟨params, body, response⟩

/-- Infers the types of an endpoint with a registry of its own. -/
def infer (endpoint : EndpointSpec) : Outcome EndpointTypes :=
  ((walk endpoint).run {}).1

/-- The declared name of the type of the parameters. -/
def paramsName (types : EndpointTypes) : Option String := types.params.map Inferred.name

/-- The declared name of the type of the body. -/
def bodyName (types : EndpointTypes) : Option String := types.body.map Inferred.name

/-- The declared name of the type of the response. -/
def responseName (types : EndpointTypes) : Option String := types.response.map Inferred.name

/-- All declarations: of the parameters, then of the body, then of the response. -/
def declarations (types : EndpointTypes) : List TypeDecl :=
  (types.params.toList ++ types.body.toList ++ types.response.toList).flatMap
    Inferred.declarations

end EndpointTypes

/-- The types of the endpoints met so far, by name, and the names that they take. -/
structure TypeCache where
  cached : Entries EndpointTypes := []
  names : TypeNames := {}

/-- The types of an endpoint: those of its name if there are any, else inferred and kept.  An
endpoint whose inference fails leaves nothing behind. -/
def TypeCache.typesFor (cache : TypeCache) (endpoint : EndpointSpec) :
    Outcome EndpointTypes × TypeCache :=
  match cache.cached.get? endpoint.name with
  | some types => (.ok types, cache)
  | none =>
    match (EndpointTypes.walk endpoint).run cache.names with
    | (.ok types, names) => (.ok types, ⟨cache.cached.put endpoint.name types, names⟩)
    | (.error e, _) => (.error e, cache)

end ClientLoom
