import ClientLoom.Proofs.Schemas

/-!
# Configurations are read as they are written

Every record of a configuration has a schema with the names, other names and codecs of its fields.
The rules of the schema are those by which the record is decoded, and its fields are those that are
written, so a configuration that was read is read again from what is written: the main statement is
`ApiConfig.ofJson_toJson`.
-/

namespace ClientLoom

open Decode

/-! ## Options of hooks -/

/-- The fields of the options of a query. -/
def QueryOptions.schema : Schema QueryOptions where
  fields := [
    .optional "defaultScript" ["defaultTopScript"] .optionText (·.defaultScript)
      fun v r => { r with defaultScript := v },
    .optional "queryKey" [] .optionText (·.queryKey) fun v r => { r with queryKey := v },
    .optional "queryFn" [] .optionText (·.queryFn) fun v r => { r with queryFn := v },
    .optional "enabled" [] .optionText (·.enabled) fun v r => { r with enabled := v },
    .optional "strictParams" [] .bool (·.strictParams) fun v r => { r with strictParams := v }]
  start := {}
  separated := by simp [FieldRule.answers, RecordField.rule]
  apart := by simp [RecordField.Apart]
  copy := by simp
  start_restored := by
    simp only [List.forall_mem_cons]
    exact ⟨rfl, rfl, rfl, rfl, rfl, List.forall_mem_nil _⟩

/-- The codec of the options of a query. -/
def QueryOptions.codec : Codec QueryOptions where
  decode := queryOptions
  encode := QueryOptions.toJson
  restores := QueryOptions.schema.restores

/-- The fields of the options of a paginated query. -/
def InfiniteOptions.schema : Schema InfiniteOptions where
  fields := [
    .required "pageKey" [] .text (·.pageKey) fun v r => { r with pageKey := v },
    .required "initialPageParam" [] .json (·.initialPageParam)
      fun v r => { r with initialPageParam := v },
    .required "getNextPageParam" [] .text (·.getNextPageParam)
      fun v r => { r with getNextPageParam := v },
    .optional "getPreviousPageParam" [] .optionText (·.getPreviousPageParam)
      fun v r => { r with getPreviousPageParam := v },
    .optional "defaultScript" ["defaultTopScript"] .optionText (·.defaultScript)
      fun v r => { r with defaultScript := v },
    .optional "queryKey" [] .optionText (·.queryKey) fun v r => { r with queryKey := v },
    .optional "queryFn" [] .optionText (·.queryFn) fun v r => { r with queryFn := v },
    .optional "enabled" [] .optionText (·.enabled) fun v r => { r with enabled := v },
    .optional "strictParams" [] .bool (·.strictParams) fun v r => { r with strictParams := v }]
  start := { pageKey := "", initialPageParam := .null, getNextPageParam := "" }
  separated := by simp [FieldRule.answers, RecordField.rule]
  apart := by simp [RecordField.Apart]
  copy := by simp
  start_restored := by
    simp only [List.forall_mem_cons]
    exact ⟨rfl, rfl, rfl, rfl, rfl, rfl, rfl, rfl, rfl, List.forall_mem_nil _⟩

/-- The codec of the options of a paginated query. -/
def InfiniteOptions.codec : Codec InfiniteOptions where
  decode := infiniteOptions
  encode := InfiniteOptions.toJson
  restores := InfiniteOptions.schema.restores

/-- The fields of the options of a mutation. -/
def MutationOptions.schema : Schema MutationOptions where
  fields := [
    .optional "defaultScript" ["defaultTopScript"] .optionText (·.defaultScript)
      fun v r => { r with defaultScript := v },
    .optional "invalidateQueryKey" ["invalidateKey"] .optionText (·.invalidateQueryKey)
      fun v r => { r with invalidateQueryKey := v },
    .optional "invalidateEndpoint" ["invalidateApiName"] .optionText (·.invalidateEndpoint)
      fun v r => { r with invalidateEndpoint := v },
    .optional "mutationKey" [] .optionText (·.mutationKey) fun v r => { r with mutationKey := v },
    .optional "mutationFn" [] .optionText (·.mutationFn) fun v r => { r with mutationFn := v }]
  start := {}
  separated := by simp [FieldRule.answers, RecordField.rule]
  apart := by simp [RecordField.Apart]
  copy := by simp
  start_restored := by
    simp only [List.forall_mem_cons]
    exact ⟨rfl, rfl, rfl, rfl, rfl, List.forall_mem_nil _⟩

/-- The codec of the options of a mutation. -/
def MutationOptions.codec : Codec MutationOptions where
  decode := mutationOptions
  encode := MutationOptions.toJson
  restores := MutationOptions.schema.restores

/-! ## Endpoints, services and configurations -/

/-- The fields of an endpoint. -/
def EndpointSpec.schema : Schema EndpointSpec where
  fields := [
    .required "method" [] .method (·.method) fun v r => { r with method := v },
    .required "name" [] .text (·.name) fun v r => { r with name := v },
    .required "path" [] .text (·.path) fun v r => { r with path := v },
    .optional "params" [] .optionJson (·.params) fun v r => { r with params := v },
    .optional "body" [] .optionJson (·.body) fun v r => { r with body := v },
    .optional "response" [] .optionJson (·.response) fun v r => { r with response := v },
    .optional "useQuery" [] (QueryOptions.codec.optionToggle fun _ => ⟨_, rfl⟩) (·.useQuery)
      fun v r => { r with useQuery := v },
    .optional "useQueryStrictParams" [] .bool (·.useQueryStrictParams)
      fun v r => { r with useQueryStrictParams := v },
    .optional "useInfiniteQuery" [] (InfiniteOptions.codec.optionToggle fun _ => ⟨_, rfl⟩)
      (·.useInfiniteQuery) fun v r => { r with useInfiniteQuery := v },
    .optional "useMutation" [] (MutationOptions.codec.optionToggle fun _ => ⟨_, rfl⟩)
      (·.useMutation) fun v r => { r with useMutation := v }]
  start := { method := .get, name := "", path := "" }
  separated := by simp [FieldRule.answers, RecordField.rule]
  apart := by simp [RecordField.Apart]
  copy := by simp
  start_restored := by
    simp only [List.forall_mem_cons]
    exact ⟨rfl, rfl, rfl, rfl, rfl, rfl, rfl, rfl, rfl, rfl, List.forall_mem_nil _⟩

/-- The codec of an endpoint. -/
def EndpointSpec.codec (policy : Surplus) : Codec EndpointSpec where
  decode := endpoint policy
  encode := EndpointSpec.toJson
  restores := EndpointSpec.schema.restores

/-- The fields of a service. -/
def ServiceSpec.schema (policy : Surplus) : Schema ServiceSpec where
  fields := [
    .required "baseURL" ["baseUrl"] .text (·.baseUrl) fun v r => { r with baseUrl := v },
    .optional "headers" [] Codec.text.map (·.headers) fun v r => { r with headers := v },
    .optional "apis" ["endpoints"] (EndpointSpec.codec policy).list (·.endpoints)
      fun v r => { r with endpoints := v },
    .optional "defaultTopScript" [] .optionText (·.topScript) fun v r => { r with topScript := v }]
  start := { baseUrl := "" }
  separated := by simp [FieldRule.answers, RecordField.rule]
  apart := by simp [RecordField.Apart]
  copy := by simp
  start_restored := by
    simp only [List.forall_mem_cons]
    exact ⟨rfl, rfl, rfl, rfl, List.forall_mem_nil _⟩

/-- The codec of a service. -/
def ServiceSpec.codec (policy : Surplus) : Codec ServiceSpec where
  decode := service policy
  encode := ServiceSpec.toJson
  restores := (ServiceSpec.schema policy).restores

/-- The fields of a configuration. -/
def ApiConfig.schema (policy : Surplus) : Schema ApiConfig where
  fields := [
    .required "path" [] (.textAs "path string") (·.path) fun v r => { r with path := v },
    .optional "ignorePattern" [] Codec.text.list (·.ignorePattern)
      fun v r => { r with ignorePattern := v },
    .required "services" [] (ServiceSpec.codec policy).map (·.services)
      fun v r => { r with services := v }]
  start := { path := "", services := .empty }
  separated := by simp [FieldRule.answers, RecordField.rule]
  apart := by simp [RecordField.Apart]
  copy := by simp
  start_restored := by
    simp only [List.forall_mem_cons]
    exact ⟨rfl, rfl, rfl, List.forall_mem_nil _⟩

/-- The codec of a configuration. -/
def ApiConfig.codec (policy : Surplus) : Codec ApiConfig where
  decode := config policy
  encode := ApiConfig.toJson
  restores := (ApiConfig.schema policy).restores

/-- A configuration that was read from a JSON value, in whatever form it was given there, is read
again from what is written, with its keys in the same order; so what is written is written again as
it is. -/
theorem ApiConfig.ofJson_toJson {value : Json} {config : ApiConfig}
    (h : ApiConfig.ofJson value = .ok config) :
    ApiConfig.ofJson config.toJson = .ok config ∧
      ApiConfig.toJson <$> ApiConfig.ofJson config.toJson =
        ApiConfig.toJson <$> ApiConfig.ofJson value := by
  have hagain : ApiConfig.ofJson config.toJson = .ok config :=
    (ApiConfig.codec .counted).restores h
  exact ⟨hagain, by rw [hagain, h]⟩

/-- A configuration with fields under other names and out of order, an endpoint as an array, methods
in lower case and all forms of switches. -/
def mixedForms : Json :=
  .object [
    ("note", .null),
    ("services", .object [
      ("todo", .object [
        ("endpoints", .array [
          .array [.string "get", .string "list", .string "/todos", .object [("page", .ofNat 1)],
            .null, .object [("items", .array []), ("count", .ofNat 0)], .bool false, .bool true,
            .array [.string "page", .ofNat 1, .string "next"]],
          .object [("useMutation", .object [("invalidateApiName", .string "list")]),
            ("path", .string "/todos"), ("name", .string "add"), ("method", .string "pOsT")]]),
        ("headers", .object [("X-Trace", .string "b"), ("Accept", .string "a")]),
        ("baseUrl", .string "/")]),
      ("auth", .array [.string "/auth"])]),
    ("path", .string "out")]

/-- The configuration that they describe. -/
def mixedConfig : ApiConfig :=
  { path := "out"
    services := ⟨[
      ("todo",
        { baseUrl := "/"
          headers := ⟨[("X-Trace", "b"), ("Accept", "a")]⟩
          endpoints := [
            { method := .get, name := "list", path := "/todos"
              params := some (.object [("page", .ofNat 1)])
              response := some (.object [("items", .array []), ("count", .ofNat 0)])
              useQuery := some (.enabled false), useQueryStrictParams := true
              useInfiniteQuery := some (.options
                { pageKey := "page", initialPageParam := .ofNat 1, getNextPageParam := "next" }) },
            { method := .post, name := "add", path := "/todos"
              useMutation := some (.options { invalidateEndpoint := some "list" }) }] }),
      ("auth", { baseUrl := "/auth" })]⟩ }

theorem ApiConfig.ofJson_toJson_mixedForms :
    ApiConfig.ofJson mixedForms = .ok mixedConfig ∧
      ApiConfig.ofJson mixedConfig.toJson = .ok mixedConfig := by
  have hread : ApiConfig.ofJson mixedForms = .ok mixedConfig := by rfl
  exact ⟨hread, (ApiConfig.ofJson_toJson hread).1⟩

end ClientLoom
