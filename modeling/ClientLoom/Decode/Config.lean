import ClientLoom.Decode.Record
import ClientLoom.Json.Text
import ClientLoom.Spec.Api
import ClientLoom.Toml.Document

/-!
# Decoding of configurations
-/

namespace ClientLoom.Decode

/-- A required field. -/
def required {σ α : Type} (name : String) (aliases : List String) (decode : Reading → Decoded α)
    (set : α → σ → σ) : FieldRule σ :=
  { name, aliases, required := true, store := fun reading record =>
      (fun value => set value record) <$> decode reading }

/-- A field that may be absent. -/
def optional {σ α : Type} (name : String) (aliases : List String) (decode : Reading → Decoded α)
    (set : α → σ → σ) : FieldRule σ :=
  { required name aliases decode set with required := false }

/-- The rules of the options of a query. -/
def queryRules : List (FieldRule QueryOptions) := [
  optional "defaultScript" ["defaultTopScript"] (option text)
    (fun v r => { r with defaultScript := v }),
  optional "queryKey" [] (option text) (fun v r => { r with queryKey := v }),
  optional "queryFn" [] (option text) (fun v r => { r with queryFn := v }),
  optional "enabled" [] (option text) (fun v r => { r with enabled := v }),
  optional "strictParams" [] bool (fun v r => { r with strictParams := v })]

/-- The options of a query. -/
def queryOptions : Reading → Decoded QueryOptions :=
  record "QueryOptions" .malformed queryRules {}

/-- The rules of the options of a paginated query. -/
def infiniteRules : List (FieldRule InfiniteOptions) := [
  required "pageKey" [] text (fun v r => { r with pageKey := v }),
  required "initialPageParam" [] json (fun v r => { r with initialPageParam := v }),
  required "getNextPageParam" [] text (fun v r => { r with getNextPageParam := v }),
  optional "getPreviousPageParam" [] (option text) (fun v r => { r with getPreviousPageParam := v }),
  optional "defaultScript" ["defaultTopScript"] (option text)
    (fun v r => { r with defaultScript := v }),
  optional "queryKey" [] (option text) (fun v r => { r with queryKey := v }),
  optional "queryFn" [] (option text) (fun v r => { r with queryFn := v }),
  optional "enabled" [] (option text) (fun v r => { r with enabled := v }),
  optional "strictParams" [] bool (fun v r => { r with strictParams := v })]

/-- The options of a paginated query. -/
def infiniteOptions : Reading → Decoded InfiniteOptions :=
  record "InfiniteQueryOptions" .malformed infiniteRules
    { pageKey := "", initialPageParam := .null, getNextPageParam := "" }

/-- The rules of the options of a mutation. -/
def mutationRules : List (FieldRule MutationOptions) := [
  optional "defaultScript" ["defaultTopScript"] (option text)
    (fun v r => { r with defaultScript := v }),
  optional "invalidateQueryKey" ["invalidateKey"] (option text)
    (fun v r => { r with invalidateQueryKey := v }),
  optional "invalidateEndpoint" ["invalidateApiName"] (option text)
    (fun v r => { r with invalidateEndpoint := v }),
  optional "mutationKey" [] (option text) (fun v r => { r with mutationKey := v }),
  optional "mutationFn" [] (option text) (fun v r => { r with mutationFn := v })]

/-- The options of a mutation. -/
def mutationOptions : Reading → Decoded MutationOptions :=
  record "MutationOptions" .malformed mutationRules {}

/-- A switch or options.  The whole value is read before its shape is looked at, and every fault of
the options is reported as the same fault of the switch. -/
def toggle {α : Type} (options : Reading → Decoded α) (reading : Reading) : Decoded (Toggle α) :=
  if !reading.keepable then .error .malformed
  else
    match reading with
    | .bool on => .ok (.enabled on)
    | other =>
      match options other with
      | .ok value => .ok (.options value)
      | .error _ => .error .unmatchedToggle

/-- An HTTP method. -/
def method (reading : Reading) : Decoded HttpMethod := do
  let name ← text reading
  (HttpMethod.parse name).mapError fun e => .refused e.message

/-- The rules of an endpoint. -/
def endpointRules : List (FieldRule EndpointSpec) := [
  required "method" [] method (fun v r => { r with method := v }),
  required "name" [] text (fun v r => { r with name := v }),
  required "path" [] text (fun v r => { r with path := v }),
  optional "params" [] (option json) (fun v r => { r with params := v }),
  optional "body" [] (option json) (fun v r => { r with body := v }),
  optional "response" [] (option json) (fun v r => { r with response := v }),
  optional "useQuery" [] (option (toggle queryOptions)) (fun v r => { r with useQuery := v }),
  optional "useQueryStrictParams" [] bool (fun v r => { r with useQueryStrictParams := v }),
  optional "useInfiniteQuery" [] (option (toggle infiniteOptions))
    (fun v r => { r with useInfiniteQuery := v }),
  optional "useMutation" [] (option (toggle mutationOptions))
    (fun v r => { r with useMutation := v })]

/-- An endpoint. -/
def endpoint (policy : Surplus) : Reading → Decoded EndpointSpec :=
  record "EndpointSpec" policy endpointRules { method := .get, name := "", path := "" }

/-- The rules of a service. -/
def serviceRules (policy : Surplus) : List (FieldRule ServiceSpec) := [
  required "baseURL" ["baseUrl"] text (fun v r => { r with baseUrl := v }),
  optional "headers" [] (map text) (fun v r => { r with headers := v }),
  optional "apis" ["endpoints"] (list (endpoint policy)) (fun v r => { r with endpoints := v }),
  optional "defaultTopScript" [] (option text) (fun v r => { r with topScript := v })]

/-- A service. -/
def service (policy : Surplus) : Reading → Decoded ServiceSpec :=
  record "ServiceSpec" policy (serviceRules policy) { baseUrl := "" }

/-- The rules of a configuration. -/
def configRules (policy : Surplus) : List (FieldRule ApiConfig) := [
  required "path" [] (textAs "path string") (fun v r => { r with path := v }),
  optional "ignorePattern" [] (list text) (fun v r => { r with ignorePattern := v }),
  required "services" [] (map (service policy)) (fun v r => { r with services := v })]

/-- A configuration. -/
def config (policy : Surplus) : Reading → Decoded ApiConfig :=
  record "ApiConfig" policy (configRules policy) { path := "", services := .empty }

/-- What a decoder reads from the whole of a JSON text. -/
def fromText {α : Type} (decode : Reading → Decoded α) (text : String) : Decoded α := do
  let document := Json.readText text
  let value ← decode document.root
  ending document.ended
  pure value

end ClientLoom.Decode

namespace ClientLoom

/-- The endpoint that a JSON value describes. -/
def EndpointSpec.ofJson (value : Json) : Except DecodeError EndpointSpec :=
  Decode.endpoint .counted (.ofJson value)

/-- The service that a JSON value describes. -/
def ServiceSpec.ofJson (value : Json) : Except DecodeError ServiceSpec :=
  Decode.service .counted (.ofJson value)

/-- The configuration that a JSON value describes. -/
def ApiConfig.ofJson (value : Json) : Except DecodeError ApiConfig :=
  Decode.config .counted (.ofJson value)

/-- The configuration that a JSON text describes. -/
def ApiConfig.ofJsonText (text : String) : Outcome ApiConfig :=
  (Decode.fromText (Decode.config .malformed) text).mapError Error.decoding

/-- The configuration that a TOML text describes. -/
def ApiConfig.ofTomlText (text : String) : Outcome ApiConfig :=
  match (Toml.read? text).map (Decode.config .allowed) with
  | some (.ok config) => .ok config
  | _ => .error (.config "invalid TOML config")

end ClientLoom
