import ClientLoom.Proofs.DeclaredNames
import ClientLoom.Proofs.FileText

/-!
# Endpoints added to a service

Endpoints are compiled in order, each with the types that those in front have left.  So endpoints
that are added at the end find the names of the others taken, and change nothing of what was
compiled before: types, methods and hooks of the shorter service come first in the longer one, and
the text of its module is only added to.  The main statement is `ServiceModule.compile_extend`.
-/

namespace ClientLoom

/-- The service with endpoints added at the end. -/
def ServiceSpec.extend (spec : ServiceSpec) (extra : List EndpointSpec) : ServiceSpec :=
  { spec with endpoints := spec.endpoints ++ extra }

namespace ServiceModule

/-! ## Compiling in two parts -/

variable {ident : ServiceIdent} {cache : TypeCache}

theorem compileEndpoints_of_cons {cache' : TypeCache} {endpoint : EndpointSpec}
    {endpoints : List EndpointSpec} {first : CompiledEndpoint} {others : List CompiledEndpoint}
    (hfirst : compileEndpoint ident cache endpoint = .ok (first, cache'))
    (hothers : compileEndpoints ident cache' endpoints = .ok others) :
    compileEndpoints ident cache (endpoint :: endpoints) = .ok (first :: others) := by
  have hwrapped : Outcome.inEndpoint endpoint.name (compileEndpoint ident cache endpoint) =
      .ok (first, cache') := mapError_eq_ok.2 hfirst
  rw [compileEndpoints, hwrapped]
  exact bind_eq_ok.2 ⟨others, hothers, rfl⟩

/-- The endpoints of a front are compiled as they are alone, and those of the back with the cache
that the front has left. -/
theorem compileEndpoints_append {front back : List EndpointSpec} {compiled : List CompiledEndpoint}
    (h : compileEndpoints ident cache (front ++ back) = .ok compiled) :
    ∃ done more, compileEndpoints ident cache front = .ok done ∧
      compileEndpoints ident
        (front.foldl (fun cache endpoint => (cache.typesFor endpoint).2) cache) back = .ok more ∧
      compiled = done ++ more := by
  induction front generalizing cache compiled with
  | nil => exact ⟨[], compiled, rfl, h, rfl⟩
  | cons endpoint front ih =>
      obtain ⟨first, cache', others, hfirst, hothers, rfl⟩ := compileEndpoints_cons_ok h
      obtain ⟨done, more, hdone, hmore, rfl⟩ := ih hothers
      -- The cache behind the first endpoint is the one that its types have left.
      have hcache : (cache.typesFor endpoint).2 = cache' := by
        rw [(compileEndpoint_ok hfirst).1]
      refine ⟨first :: done, more, compileEndpoints_of_cons hfirst hdone, ?_, rfl⟩
      rw [List.foldl_cons, hcache]
      exact hmore

/-- What a compiled service takes from its configuration, apart from the endpoints. -/
theorem compile_settings {name : String} {spec : ServiceSpec} {service : ServiceModule}
    (h : compile name spec = .ok service) :
    service.topScript = spec.topScript ∧
      compileHeaders spec.headers.entries = .ok service.headers ∧
      RuntimeValue.ofText spec.baseUrl "baseURL" = .ok service.baseUrl := by
  simp only [compile] at h
  obtain ⟨_, -, h⟩ := bind_eq_ok.1 h
  obtain ⟨_, -, h⟩ := bind_eq_ok.1 h
  obtain ⟨endpoints, -, h⟩ := bind_eq_ok.1 h
  obtain ⟨headers, hheaders, h⟩ := bind_eq_ok.1 h
  obtain ⟨baseUrl, hbaseUrl, h⟩ := bind_eq_ok.1 h
  obtain rfl := Except.ok.inj h
  exact ⟨rfl, hheaders, hbaseUrl⟩

/-- A longer service is the shorter one with more compiled endpoints. -/
theorem exists_added_endpoints {name : String} {spec : ServiceSpec} {extra : List EndpointSpec}
    {service longer : ServiceModule} (h : compile name spec = .ok service)
    (hlonger : compile name (spec.extend extra) = .ok longer) :
    ∃ added, compileEndpoints service.ident (TypeCache.after spec.endpoints) extra = .ok added ∧
      longer = { service with endpoints := service.endpoints ++ added } := by
  obtain ⟨-, -, hident, hendpoints⟩ := compile_ok h
  obtain ⟨-, -, hident', hendpoints'⟩ := compile_ok hlonger
  obtain ⟨hscript, hheaders, hbaseUrl⟩ := compile_settings h
  obtain ⟨hscript', hheaders', hbaseUrl'⟩ := compile_settings hlonger
  obtain ⟨done, more, hdone, hmore, hall⟩ := compileEndpoints_append hendpoints'
  have hsame : done = service.endpoints := Except.ok.inj (hdone.symm.trans hendpoints)
  rw [hsame] at hall
  refine ⟨more, by rw [hident]; exact hmore, ?_⟩
  -- Both services read their headers and base URL from the same texts.
  have hsameHeaders : longer.headers = service.headers :=
    Except.ok.inj (hheaders'.symm.trans hheaders)
  have hsameUrl : longer.baseUrl = service.baseUrl :=
    Except.ok.inj (hbaseUrl'.symm.trans hbaseUrl)
  cases longer with
  | mk ident topScript baseUrl headers endpoints =>
      simp only at hident' hscript' hsameHeaders hsameUrl hall
      rw [hident', ← hident, hscript', hsameHeaders, hsameUrl, hall,
        show (spec.extend extra).topScript = service.topScript from hscript.symm]

/-! ## The text of a module -/

/-- The class of a module up to its first method. -/
def openingText (service : ServiceModule) : String :=
  "\nclass " ++ service.ident.className ++ " \x7b\n" ++
    "  private httpClient: HttpClient = new HttpClient(\x7b\n" ++
    "    baseURL: " ++ service.baseUrl.render ++ ",\n" ++
    "    requestHook: (config) => \x7b\n" ++ String.join (service.headers.map headerText) ++
    "      return config;\n" ++ "    \x7d,\n" ++ "  \x7d);\n"

/-- The text of a module behind its last method. -/
def closingText (service : ServiceModule) : String :=
  "\x7d\n\n" ++ exportText service.ident

/-- The types of endpoints as they stand in a module. -/
def typesText (endpoints : List CompiledEndpoint) : String :=
  String.join ((endpoints.flatMap fun endpoint => endpoint.types.declarations).map declText)

/-- The methods of endpoints as they stand in a module. -/
def methodsText (endpoints : List CompiledEndpoint) : String :=
  String.join (endpoints.map fun endpoint => methodText endpoint.request)

theorem text_eq (service : ServiceModule) :
    service.text = service.headText ++ service.openingText ++ methodsText service.endpoints ++
      service.closingText := by
  unfold text classText openingText closingText methodsText
  simp only [String.append_assoc, -String.reduceAppend]

/-- More endpoints put their types behind the others in front of the class. -/
theorem headText_append (service : ServiceModule) (added : List CompiledEndpoint) :
    headText { service with endpoints := service.endpoints ++ added } =
      service.headText ++ typesText added := by
  unfold headText declarations typesText
  rw [List.flatMap_append, List.map_append, String.join_append, ← String.append_assoc]

@[simp] theorem methodsText_append (front back : List CompiledEndpoint) :
    methodsText (front ++ back) = methodsText front ++ methodsText back := by
  rw [methodsText, List.map_append, String.join_append]
  rfl

/-! ## Longer services -/

/-- Endpoints that are added at the end are compiled behind the others and change nothing of them.
The types, the methods and the hook files of the shorter service come first in the longer one, each
as it was; the text of the module is that of the shorter one with more types in front of the class
and more methods at its end. -/
theorem compile_extend {name : String} {spec : ServiceSpec} {extra : List EndpointSpec}
    {service longer : ServiceModule} (h : compile name spec = .ok service)
    (hlonger : compile name (spec.extend extra) = .ok longer) :
    service.declarations <+: longer.declarations ∧
    service.endpoints.map CompiledEndpoint.request <+:
      longer.endpoints.map CompiledEndpoint.request ∧
    (∃ hooks hooks',
      service.files = .ok (⟨modulePath service.ident.className, service.text⟩ :: hooks) ∧
      longer.files = .ok (⟨modulePath service.ident.className, longer.text⟩ :: hooks') ∧
      hooks <+: hooks') ∧
    ∃ added, compileEndpoints service.ident (TypeCache.after spec.endpoints) extra = .ok added ∧
      longer = { service with endpoints := service.endpoints ++ added } ∧
      service.text = service.headText ++ service.openingText ++ methodsText service.endpoints ++
        service.closingText ∧
      longer.text = service.headText ++ typesText added ++ service.openingText ++
        (methodsText service.endpoints ++ methodsText added) ++ service.closingText := by
  obtain ⟨added, hadded, rfl⟩ := exists_added_endpoints h hlonger
  let grown : ServiceModule := { service with endpoints := service.endpoints ++ added }
  have hdeclarations : service.declarations <+: grown.declarations := by
    rw [declarations, declarations, List.flatMap_append]
    exact List.prefix_append _ _
  have hrequests : service.endpoints.map CompiledEndpoint.request <+:
      grown.endpoints.map CompiledEndpoint.request := by
    rw [List.map_append]
    exact List.prefix_append _ _
  have hhooks : service.hooks <+: grown.hooks := by
    rw [hooks, hooks, List.filterMap_append]
    exact List.prefix_append _ _
  have htext : grown.text = service.headText ++ typesText added ++ service.openingText ++
      (methodsText service.endpoints ++ methodsText added) ++ service.closingText := by
    rw [text_eq, headText_append, methodsText_append]
    rfl
  exact ⟨hdeclarations, hrequests, ⟨_, _, service.files_eq, grown.files_eq, hhooks.map _⟩,
    added, hadded, rfl, service.text_eq, htext⟩

/-- A service whose only endpoint has a nested type of the name that the parameters of another one
would get. -/
def nestedTodo : ServiceSpec :=
  { baseUrl := "/"
    endpoints := [
      { method := .get, name := "get", path := "/",
        response := some (.object [("params", .object [("a", .ofNat 1)])]),
        useQuery := some (.enabled true) }] }

/-- The other endpoint. -/
def nestedTodoExtra : List EndpointSpec := [
  { method := .get, name := "getResponse", path := "/",
    params := some (.object [("b", .string "")]), useQuery := some (.enabled true) }]

theorem compile_extend_nestedTodo :
    ∃ service longer, compile "todo" nestedTodo = .ok service ∧
      compile "todo" (nestedTodo.extend nestedTodoExtra) = .ok longer ∧
      declNames service.declarations = ["TGetResponse", "TGetResponseParams"] ∧
      declNames longer.declarations =
        ["TGetResponse", "TGetResponseParams", "TGetResponseParams2"] ∧
      service.declarations <+: longer.declarations := by
  have hshort : (compile "todo" nestedTodo).toOption.map
      (fun service => declNames service.declarations) =
        some ["TGetResponse", "TGetResponseParams"] := by
    decide +kernel
  have hlong : (compile "todo" (nestedTodo.extend nestedTodoExtra)).toOption.map
      (fun service => declNames service.declarations) =
        some ["TGetResponse", "TGetResponseParams", "TGetResponseParams2"] := by
    decide +kernel
  obtain ⟨service, hservice, hnames⟩ := exists_of_toOption hshort
  obtain ⟨longer, hlonger, hmore⟩ := exists_of_toOption hlong
  exact ⟨service, longer, hservice, hlonger, hnames, hmore, (compile_extend hservice hlonger).1⟩

end ServiceModule

end ClientLoom
