import ClientLoom.ServiceModule
import ClientLoom.Spec.Api

/-!
# Generated clients

All files of a build: the client that the services share, then the files of every service.
-/

namespace ClientLoom.Client

/-- The path of the client that the services share. -/
def httpClientPath : String := "HttpClient.ts"

/-- The client that the services share. -/
def httpClient : Outcome GeneratedFile := do
  let content ← Template.Library.builtin.render "http-client" (.object [])
  pure ⟨httpClientPath, content⟩

/-- Services must not have the same class, which names their module.  `seen` are the classes of the
services in front, with their keys. -/
def checkServiceNames (seen : Entries String) : List String → Outcome Unit
  | [] => .ok ()
  | key :: rest =>
    let className := (ServiceIdent.ofKey key).className
    match seen.get? className with
    | some first =>
      .error (.validation "services"
        ("services '" ++ first ++ "' and '" ++ key ++ "' both generate '" ++ className ++ "'"))
    | none => checkServiceNames (seen ++ [(className, key)]) rest

/-- The files of one service. -/
def serviceFiles (name : String) (spec : ServiceSpec) : Outcome (List GeneratedFile) := do
  let service ← ServiceModule.compile name spec
  service.files

/-- The key of a service and the outcome of its compilation. -/
abbrev ServiceResult := String × Outcome (List GeneratedFile)

/-- The results of services that are compiled each on its own, whatever becomes of the others. -/
def compileEach (services : List (String × ServiceSpec)) : List ServiceResult :=
  services.map fun entry => (entry.1, serviceFiles entry.1 entry.2)

/-- The results of services that are compiled one after the other, up to the first failure. -/
def compileInOrder : List (String × ServiceSpec) → List ServiceResult
  | [] => []
  | (name, spec) :: rest =>
    match serviceFiles name spec with
    | .ok files => (name, .ok files) :: compileInOrder rest
    | .error e => [(name, .error e)]

/-- The files of results, in order; the first failure is reported with the key of its service. -/
def gather : List ServiceResult → Outcome (List GeneratedFile)
  | [] => .ok []
  | (name, result) :: rest => do
    let files ← Outcome.inService name result
    let others ← gather rest
    pure (files ++ others)

/-- The files of services, in order. -/
def servicesFiles (services : List (String × ServiceSpec)) : Outcome (List GeneratedFile) :=
  gather (compileEach services)

/-- All files of a build whose services are compiled in the given way. -/
def generateBy (compileServices : List (String × ServiceSpec) → List ServiceResult)
    (config : ApiConfig) : Outcome (List GeneratedFile) := do
  let shared ← httpClient
  checkServiceNames [] config.services.keys
  let files ← gather (compileServices config.services.entries)
  pure (shared :: files)

/-- All files of a build. -/
def generate (config : ApiConfig) : Outcome (List GeneratedFile) :=
  generateBy compileEach config

end ClientLoom.Client
