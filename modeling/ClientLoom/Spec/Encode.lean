import ClientLoom.Spec.Api

/-!
# Encoding of configurations

Every field is written under its own name, an absent one as null.
-/

namespace ClientLoom

/-- The JSON value of options of a query. -/
def QueryOptions.toJson (options : QueryOptions) : Json :=
  .object [
    ("defaultScript", .ofText? options.defaultScript),
    ("queryKey", .ofText? options.queryKey),
    ("queryFn", .ofText? options.queryFn),
    ("enabled", .ofText? options.enabled),
    ("strictParams", .bool options.strictParams)]

/-- The JSON value of options of a paginated query. -/
def InfiniteOptions.toJson (options : InfiniteOptions) : Json :=
  .object [
    ("pageKey", .string options.pageKey),
    ("initialPageParam", options.initialPageParam),
    ("getNextPageParam", .string options.getNextPageParam),
    ("getPreviousPageParam", .ofText? options.getPreviousPageParam),
    ("defaultScript", .ofText? options.defaultScript),
    ("queryKey", .ofText? options.queryKey),
    ("queryFn", .ofText? options.queryFn),
    ("enabled", .ofText? options.enabled),
    ("strictParams", .bool options.strictParams)]

/-- The JSON value of options of a mutation. -/
def MutationOptions.toJson (options : MutationOptions) : Json :=
  .object [
    ("defaultScript", .ofText? options.defaultScript),
    ("invalidateQueryKey", .ofText? options.invalidateQueryKey),
    ("invalidateEndpoint", .ofText? options.invalidateEndpoint),
    ("mutationKey", .ofText? options.mutationKey),
    ("mutationFn", .ofText? options.mutationFn)]

/-- The JSON value of a switch, null in its absence. -/
def Toggle.toJson {α : Type} (encode : α → Json) : Option (Toggle α) → Json
  | none => .null
  | some (.enabled on) => .bool on
  | some (.options value) => encode value

/-- The JSON value of an endpoint. -/
def EndpointSpec.toJson (endpoint : EndpointSpec) : Json :=
  .object [
    ("method", .string endpoint.method.display),
    ("name", .string endpoint.name),
    ("path", .string endpoint.path),
    ("params", endpoint.params.getD .null),
    ("body", endpoint.body.getD .null),
    ("response", endpoint.response.getD .null),
    ("useQuery", Toggle.toJson QueryOptions.toJson endpoint.useQuery),
    ("useQueryStrictParams", .bool endpoint.useQueryStrictParams),
    ("useInfiniteQuery", Toggle.toJson InfiniteOptions.toJson endpoint.useInfiniteQuery),
    ("useMutation", Toggle.toJson MutationOptions.toJson endpoint.useMutation)]

/-- The JSON value of an ordered map. -/
def OrderedMap.toJson {α : Type} (encode : α → Json) (map : OrderedMap α) : Json :=
  .object (map.entries.map fun entry => (entry.1, encode entry.2))

/-- The JSON value of a service. -/
def ServiceSpec.toJson (service : ServiceSpec) : Json :=
  .object [
    ("baseURL", .string service.baseUrl),
    ("headers", service.headers.toJson Json.string),
    ("apis", .array (service.endpoints.map EndpointSpec.toJson)),
    ("defaultTopScript", .ofText? service.topScript)]

/-- The JSON value of a configuration. -/
def ApiConfig.toJson (config : ApiConfig) : Json :=
  .object [
    ("path", .string config.path),
    ("ignorePattern", .array (config.ignorePattern.map Json.string)),
    ("services", config.services.toJson ServiceSpec.toJson)]

end ClientLoom
