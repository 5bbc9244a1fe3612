import ClientLoom.Client
import ClientLoom.Proofs.Outcomes
import Mathlib.Data.List.Nodup

/-!
# The paths of generated files

Which files a build gives can be read off its configuration: the shared client, then for every
service its module and one file for every endpoint with a hook.  The main statement is
`Client.map_path_generate`: the paths of a build that succeeds are `ApiConfig.generatedPaths`.
-/

namespace ClientLoom

/-! ## Paths of a configuration -/

/-- What stands in front of the name of the endpoint in the name of its hook. -/
def Hook.stem? : Hook → Option String
  | .none => Option.none
  | .query _ => some "use"
  | .infinite _ => some "useInfinite"
  | .mutation _ => some "useMutate"

/-- The name of the hook of an endpoint, if it has one. -/
def EndpointSpec.hookName? (endpoint : EndpointSpec) : Option String :=
  match endpoint.hook with
  | .ok hook => hook.stem?.map fun stem => stem ++ Text.pascalCase endpoint.name
  | .error _ => none

/-- The path of the module of a class. -/
def modulePath (className : String) : String :=
  className ++ ".ts"

/-- The path of a hook of a class. -/
def hookPath (className hookName : String) : String :=
  "queries/" ++ className ++ "/" ++ hookName ++ ".ts"

namespace ServiceSpec

/-- The paths of the hooks of a service whose class is given. -/
def hookPaths (className : String) (spec : ServiceSpec) : List String :=
  (spec.endpoints.filterMap EndpointSpec.hookName?).map (hookPath className)

/-- The paths of all files of the service with a key. -/
def generatedPaths (key : String) (spec : ServiceSpec) : List String :=
  modulePath (ServiceIdent.ofKey key).className ::
    spec.hookPaths (ServiceIdent.ofKey key).className

end ServiceSpec

/-- The paths of all files of a build. -/
def ApiConfig.generatedPaths (config : ApiConfig) : List String :=
  Client.httpClientPath ::
    config.services.entries.flatMap fun entry => entry.2.generatedPaths entry.1

/-! ## From endpoints to files -/

theorem Request.name_of_build {endpoint : EndpointSpec} {types : EndpointTypes} {request : Request}
    (h : Request.build endpoint types = .ok request) : request.name = endpoint.name := by
  simp only [Request.build] at h
  split at h
  · cases h
  · obtain rfl := Except.ok.inj h
    rfl

/-- A plan has the class of the service and the name of the hook of the endpoint. -/
theorem HookPlan.map_names_build (context : HookContext) {endpoint : EndpointSpec}
    {plan? : Option HookPlan} (hname : context.request.name = endpoint.name)
    (h : HookPlan.build context endpoint = .ok plan?) :
    plan?.map (fun plan => (plan.className, plan.hookName)) =
      endpoint.hookName?.map (Prod.mk context.service.className) := by
  obtain ⟨hook, hhook, hplan⟩ := bind_eq_ok.1 h
  cases hook with
  | none =>
      obtain rfl := Except.ok.inj hplan
      simp [EndpointSpec.hookName?, hhook, Hook.stem?]
  | query options | infinite options | mutation options =>
      obtain rfl := Except.ok.inj hplan
      simp only [EndpointSpec.hookName?, hhook, Hook.stem?, Option.map_some, ← hname]
      rfl

theorem HookPlan.map_path_build (context : HookContext) {endpoint : EndpointSpec}
    {plan? : Option HookPlan} (hname : context.request.name = endpoint.name)
    (h : HookPlan.build context endpoint = .ok plan?) :
    plan?.map HookPlan.path = endpoint.hookName?.map (hookPath context.service.className) := by
  have hnames := congrArg (Option.map fun names => hookPath names.1 names.2)
    (map_names_build context hname h)
  rw [Option.map_map, Option.map_map] at hnames
  exact hnames

namespace ServiceModule

/-- An endpoint that compiles has types, from which its request and its hook are built. -/
theorem compileEndpoint_ok {ident : ServiceIdent} {cache cache' : TypeCache}
    {endpoint : EndpointSpec} {compiled : CompiledEndpoint}
    (h : compileEndpoint ident cache endpoint = .ok (compiled, cache')) :
    cache.typesFor endpoint = (.ok compiled.types, cache') ∧
      Request.build endpoint compiled.types = .ok compiled.request ∧
      HookPlan.build ⟨ident, compiled.types, compiled.request⟩ endpoint = .ok compiled.hook := by
  rw [compileEndpoint] at h
  cases hfor : cache.typesFor endpoint with
  | mk outcome next =>
  rw [hfor] at h
  obtain ⟨types, htypes, h⟩ := bind_eq_ok.1 h
  obtain ⟨request, hrequest, h⟩ := bind_eq_ok.1 h
  obtain ⟨hook, hhook, h⟩ := bind_eq_ok.1 h
  simp only [pure, Except.pure, Except.ok.injEq, Prod.mk.injEq] at h
  obtain ⟨rfl, rfl⟩ := h
  exact ⟨by rw [htypes], hrequest, hhook⟩

/-- Endpoints that compile do so one after the other, each with the cache that the one before it
has left. -/
theorem compileEndpoints_cons_ok {ident : ServiceIdent} {cache : TypeCache}
    {endpoint : EndpointSpec} {endpoints : List EndpointSpec} {compiled : List CompiledEndpoint}
    (h : compileEndpoints ident cache (endpoint :: endpoints) = .ok compiled) :
    ∃ first cache' others, compileEndpoint ident cache endpoint = .ok (first, cache') ∧
      compileEndpoints ident cache' endpoints = .ok others ∧ compiled = first :: others := by
  rw [compileEndpoints] at h
  split at h
  · cases h
  · rename_i first cache' hfirst
    obtain ⟨others, hothers, h⟩ := bind_eq_ok.1 h
    exact ⟨first, cache', others, mapError_eq_ok.1 hfirst, hothers, (Except.ok.inj h).symm⟩

theorem map_path_compileEndpoint {ident : ServiceIdent} {cache cache' : TypeCache}
    {endpoint : EndpointSpec} {compiled : CompiledEndpoint}
    (h : compileEndpoint ident cache endpoint = .ok (compiled, cache')) :
    compiled.hook.map HookPlan.path = endpoint.hookName?.map (hookPath ident.className) := by
  obtain ⟨-, hrequest, hhook⟩ := compileEndpoint_ok h
  exact HookPlan.map_path_build ⟨ident, compiled.types, compiled.request⟩
    (Request.name_of_build hrequest) hhook

theorem map_path_compileEndpoints {ident : ServiceIdent} {cache : TypeCache}
    {endpoints : List EndpointSpec} {compiled : List CompiledEndpoint}
    (h : compileEndpoints ident cache endpoints = .ok compiled) :
    (compiled.filterMap CompiledEndpoint.hook).map HookPlan.path =
      (endpoints.filterMap EndpointSpec.hookName?).map (hookPath ident.className) := by
  induction endpoints generalizing cache compiled with
  | nil =>
      obtain rfl := Except.ok.inj h
      rfl
  | cons endpoint endpoints ih =>
      obtain ⟨first, cache', others, hfirst, hothers, rfl⟩ := compileEndpoints_cons_ok h
      have hpath := map_path_compileEndpoint hfirst
      have hrest := ih hothers
      rw [List.map_filterMap, List.map_filterMap] at hrest ⊢
      rw [List.filterMap_cons, List.filterMap_cons, hpath, hrest]

theorem map_path_mapM_hookFile {plans : List HookPlan} {files : List GeneratedFile}
    (h : plans.mapM hookFile = .ok files) :
    files.map GeneratedFile.path = plans.map HookPlan.path := by
  induction plans generalizing files with
  | nil =>
      obtain rfl := Except.ok.inj h
      rfl
  | cons plan plans ih =>
      rw [List.mapM_cons] at h
      obtain ⟨file, hfile, h⟩ := bind_eq_ok.1 h
      obtain ⟨others, hothers, h⟩ := bind_eq_ok.1 h
      obtain rfl := Except.ok.inj h
      obtain ⟨content, -, hfile⟩ := bind_eq_ok.1 hfile
      obtain rfl := Except.ok.inj hfile
      rw [List.map_cons, List.map_cons, ih hothers]

/-- A service that compiles has passed both checks of its endpoints. -/
theorem compile_ok {name : String} {spec : ServiceSpec} {service : ServiceModule}
    (h : compile name spec = .ok service) :
    spec.validate name = .ok () ∧ checkNames [] spec.endpoints = .ok () ∧
      service.ident = ServiceIdent.ofKey name ∧
      compileEndpoints (ServiceIdent.ofKey name) {} spec.endpoints = .ok service.endpoints := by
  simp only [compile] at h
  obtain ⟨_, hvalid, h⟩ := bind_eq_ok.1 h
  obtain ⟨_, hnames, h⟩ := bind_eq_ok.1 h
  obtain ⟨endpoints, hendpoints, h⟩ := bind_eq_ok.1 h
  obtain ⟨headers, -, h⟩ := bind_eq_ok.1 h
  obtain ⟨baseUrl, -, h⟩ := bind_eq_ok.1 h
  obtain rfl := Except.ok.inj h
  exact ⟨hvalid, hnames, rfl, hendpoints⟩

theorem map_path_files {service : ServiceModule} {files : List GeneratedFile}
    (h : service.files = .ok files) :
    files.map GeneratedFile.path =
      modulePath service.ident.className :: service.hooks.map HookPlan.path := by
  simp only [ServiceModule.files] at h
  obtain ⟨hooks, hhooks, h⟩ := bind_eq_ok.1 h
  obtain ⟨file, hfile, h⟩ := bind_eq_ok.1 h
  obtain ⟨content, -, hfile⟩ := bind_eq_ok.1 hfile
  obtain rfl := Except.ok.inj hfile
  obtain rfl := Except.ok.inj h
  rw [List.map_cons, map_path_mapM_hookFile hhooks]
  rfl

end ServiceModule

namespace Client

theorem map_path_serviceFiles {name : String} {spec : ServiceSpec} {files : List GeneratedFile}
    (h : serviceFiles name spec = .ok files) :
    files.map GeneratedFile.path = spec.generatedPaths name := by
  obtain ⟨service, hservice, hfiles⟩ := bind_eq_ok.1 h
  obtain ⟨-, -, hident, hendpoints⟩ := ServiceModule.compile_ok hservice
  rw [ServiceModule.map_path_files hfiles, ServiceModule.hooks,
    ServiceModule.map_path_compileEndpoints hendpoints, hident]
  rfl

theorem map_path_servicesFiles {services : List (String × ServiceSpec)}
    {files : List GeneratedFile} (h : servicesFiles services = .ok files) :
    files.map GeneratedFile.path =
      services.flatMap fun entry => entry.2.generatedPaths entry.1 := by
  induction services generalizing files with
  | nil =>
      obtain rfl := Except.ok.inj h
      rfl
  | cons entry services ih =>
      obtain ⟨name, spec⟩ := entry
      obtain ⟨first, hfirst, h⟩ := bind_eq_ok.1 h
      obtain ⟨others, hothers, h⟩ := bind_eq_ok.1 h
      obtain rfl := Except.ok.inj h
      rw [List.map_append, map_path_serviceFiles (mapError_eq_ok.1 hfirst), ih hothers,
        List.flatMap_cons]

/-- A build that succeeds has compiled every service, after the check of their classes. -/
theorem generate_ok {config : ApiConfig} {files : List GeneratedFile}
    (h : generate config = .ok files) :
    checkServiceNames [] config.services.keys = .ok () ∧
      ∃ shared others, httpClient = .ok shared ∧
        servicesFiles config.services.entries = .ok others ∧ files = shared :: others := by
  obtain ⟨shared, hshared, h⟩ := bind_eq_ok.1 h
  obtain ⟨_, hnames, h⟩ := bind_eq_ok.1 h
  obtain ⟨others, hothers, h⟩ := bind_eq_ok.1 h
  exact ⟨hnames, shared, others, hshared, hothers, (Except.ok.inj h).symm⟩

/-- The paths of a build that succeeds. -/
theorem map_path_generate {config : ApiConfig} {files : List GeneratedFile}
    (h : generate config = .ok files) :
    files.map GeneratedFile.path = config.generatedPaths := by
  obtain ⟨-, shared, others, hshared, hothers, rfl⟩ := generate_ok h
  obtain ⟨content, -, hshared⟩ := bind_eq_ok.1 hshared
  obtain rfl := Except.ok.inj hshared
  rw [List.map_cons, map_path_servicesFiles hothers]
  rfl

end Client

end ClientLoom
