import ClientLoom.Output.Path
import ClientLoom.Spec.Service

/-!
# The configuration of a build
-/

namespace ClientLoom

/-- A configuration: where the output goes, which files are left alone, and the services. -/
structure ApiConfig where
  path : String
  ignorePattern : List String := []
  services : OrderedMap ServiceSpec

namespace ApiConfig

/-- Checks services one after the other. -/
def checkServices : List (String × ServiceSpec) → Outcome Unit
  | [] => .ok ()
  | (name, service) :: rest =>
    match Outcome.inService name (service.validate name) with
    | .error e => .error e
    | .ok () => checkServices rest

/-- Checks every service, in order. -/
def validate (config : ApiConfig) : Outcome Unit :=
  checkServices config.services.entries

/-- The directory of the output, seen from the directory of the configuration. -/
def outputRoot (config : ApiConfig) (directory : String) : String :=
  Path.join directory config.path

end ApiConfig

end ClientLoom
