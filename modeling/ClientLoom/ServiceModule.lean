import ClientLoom.HookPlan
import ClientLoom.Output.Path
import ClientLoom.RuntimeValue
import ClientLoom.Spec.Service
import ClientLoom.TypeNode.Printer

/-!
# Service modules

A service becomes one module with its types, a class with a method for every endpoint and the only
instance of the class, and a file for every hook.
-/

namespace ClientLoom

/-- A compiled endpoint. -/
structure CompiledEndpoint where
  types : EndpointTypes
  request : Request
  hook : Option HookPlan

/-- A compiled service. -/
structure ServiceModule where
  ident : ServiceIdent
  topScript : Option String
  baseUrl : RuntimeValue
  headers : List (String × RuntimeValue)
  endpoints : List CompiledEndpoint

namespace ServiceModule

/-- Endpoints with different names must not have the same Pascal case, of which types, hooks and
files take their names.  `seen` are the Pascal cases of the endpoints in front, with their names. -/
def checkNames (seen : Entries String) : List EndpointSpec → Outcome Unit
  | [] => .ok ()
  | endpoint :: rest =>
    let pascal := Text.pascalCase endpoint.name
    match seen.get? pascal with
    | some first =>
      .error (.validation "apis"
        ("endpoints '" ++ first ++ "' and '" ++ endpoint.name ++ "' both generate '" ++
          pascal ++ "'"))
    | none => checkNames (seen ++ [(pascal, endpoint.name)]) rest

/-- Compiles an endpoint with the types met so far. -/
def compileEndpoint (ident : ServiceIdent) (cache : TypeCache) (endpoint : EndpointSpec) :
    Outcome (CompiledEndpoint × TypeCache) := do
  let (types, cache) := cache.typesFor endpoint
  let types ← types
  let request ← Request.build endpoint types
  let hook ← HookPlan.build ⟨ident, types, request⟩ endpoint
  pure (⟨types, request, hook⟩, cache)

/-- Compiles endpoints one after the other; the first failure ends it. -/
def compileEndpoints (ident : ServiceIdent) (cache : TypeCache) :
    List EndpointSpec → Outcome (List CompiledEndpoint)
  | [] => .ok []
  | endpoint :: rest =>
    match Outcome.inEndpoint endpoint.name (compileEndpoint ident cache endpoint) with
    | .error e => .error e
    | .ok (compiled, cache) => do
      let others ← compileEndpoints ident cache rest
      pure (compiled :: others)

/-- The values of headers, in order. -/
def compileHeaders : List (String × String) → Outcome (List (String × RuntimeValue))
  | [] => .ok []
  | (key, text) :: rest => do
    let value ← RuntimeValue.ofText text ("headers." ++ key)
    let others ← compileHeaders rest
    pure ((key, value) :: others)

/-- Compiles a service. -/
def compile (name : String) (spec : ServiceSpec) : Outcome ServiceModule := do
  spec.validate name
  checkNames [] spec.endpoints
  let ident := ServiceIdent.ofKey name
  let endpoints ← compileEndpoints ident {} spec.endpoints
  let headers ← compileHeaders spec.headers.entries
  let baseUrl ← RuntimeValue.ofText spec.baseUrl "baseURL"
  pure ⟨ident, spec.topScript, baseUrl, headers, endpoints⟩

/-- The declarations of the types of all endpoints, in order. -/
def declarations (service : ServiceModule) : List TypeDecl :=
  service.endpoints.flatMap fun endpoint => endpoint.types.declarations

/-- The plans of the hooks, in the order of their endpoints. -/
def hooks (service : ServiceModule) : List HookPlan :=
  service.endpoints.filterMap CompiledEndpoint.hook

/-- A request in the context of the template of a module. -/
def requestContext (request : Request) : Json :=
  .object [
    ("name", .string request.name),
    ("signature", .string request.signature),
    ("prelude", .ofText? request.prelude?),
    ("call", .string request.call)]

/-- The context of the template of a module. -/
def context (service : ServiceModule) : Json :=
  .object [
    ("class_name", .string service.ident.className),
    ("instance_name", .string service.ident.instanceName),
    ("top_script", .ofText? service.topScript),
    ("base_url", .string service.baseUrl.render),
    ("headers", .array (service.headers.map fun header =>
      .object [
        ("name", .string (Text.stringLiteral header.1)),
        ("value", .string header.2.render)])),
    ("declarations", .array (service.declarations.map fun decl => .string decl.render)),
    ("methods", .array (service.endpoints.map fun endpoint => requestContext endpoint.request))]

/-- The module file. -/
def moduleFile (service : ServiceModule) : Outcome GeneratedFile := do
  let content ← Template.Library.builtin.render "service" service.context
  pure ⟨service.ident.className ++ ".ts", content⟩

/-- The file of a hook. -/
def hookFile (plan : HookPlan) : Outcome GeneratedFile := do
  let content ← plan.render
  pure ⟨plan.path, content⟩

/-- All files of a service: the module, then the hooks. -/
def files (service : ServiceModule) : Outcome (List GeneratedFile) := do
  let hooks ← service.hooks.mapM hookFile
  let file ← service.moduleFile
  pure (file :: hooks)

end ServiceModule

end ClientLoom
