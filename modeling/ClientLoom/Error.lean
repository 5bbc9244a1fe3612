import ClientLoom.Decode.Error

/-!
# Errors of a build

Every way in which a build can fail, as a cause.  An error of one endpoint or one service is
wrapped with its name on the way out.
-/

namespace ClientLoom

/-- Why a file or directory cannot be read or written. -/
inductive FileFault
  | notFound
  | alreadyExists
  | notADirectory
  | isADirectory
  | notEmpty
  | busy
  | nameTooLong
  | nulInName
  | notUtf8
  /-- Any other fault, by its description. -/
  | other (description : String)
deriving DecidableEq

/-- The description of a fault. -/
def FileFault.message : FileFault → String
  | .notFound => "No such file or directory (os error 2)"
  | .alreadyExists => "File exists (os error 17)"
  | .notADirectory => "Not a directory (os error 20)"
  | .isADirectory => "Is a directory (os error 21)"
  | .notEmpty => "Directory not empty (os error 39)"
  | .busy => "Device or resource busy (os error 16)"
  | .nameTooLong => "File name too long (os error 36)"
  | .nulInName => "file name contained an unexpected NUL byte"
  | .notUtf8 => "stream did not contain valid UTF-8"
  | .other description => description

/-- The cause of a failed build. -/
inductive Error
  | unsupportedTag (kind field : String)
  | unboundPathParam (endpoint key : String)
  | duplicateEndpoint (service endpoint : String)
  | conflictingHooks (endpoint hooks : String)
  | config (message : String)
  | validation (field reason : String)
  | decoding (cause : DecodeError)
  | badTemplate (name : String)
  | failedRendering
  | file (path : String) (fault : FileFault)
  | inEndpoint (endpoint : String) (cause : Error)
  | inService (service : String) (cause : Error)

namespace Error

/-- The message of an error, without that of the error it wraps. -/
def message : Error → String
  | .unsupportedTag kind field => "unsupported tag <" ++ kind ++ "> in " ++ field
  | .unboundPathParam endpoint key =>
    "path placeholder '\x7b" ++ key ++ "\x7d' of endpoint '" ++ endpoint ++
      "' has no matching params key"
  | .duplicateEndpoint service endpoint =>
    "duplicate endpoint '" ++ endpoint ++ "' in service '" ++ service ++ "'"
  | .conflictingHooks endpoint hooks =>
    "endpoint '" ++ endpoint ++ "' declares several hooks (" ++ hooks ++ "); pick exactly one"
  | .config message => "Configuration error: " ++ message
  | .validation field reason => "Validation error in " ++ field ++ ": " ++ reason
  | .decoding _ => "Serialization error: invalid JSON config"
  | .badTemplate name => "Failed to register template '" ++ name ++ "'"
  | .failedRendering => "Template rendering failed"
  | .file path _ => "I/O error at " ++ path
  | .inEndpoint endpoint _ => "failed to generate endpoint '" ++ endpoint ++ "'"
  | .inService service _ => "failed to generate service '" ++ service ++ "'"

/-- The error inside all wrappers. -/
def rootCause : Error → Error
  | .inEndpoint _ cause => rootCause cause
  | .inService _ cause => rootCause cause
  | e => e

/-- The kinds of errors. -/
inductive Kind
  | unsupportedTag
  | unboundPathParam
  | duplicateEndpoint
  | conflictingHooks
  | config
  | validation
  | serialization
  | file
  | endpoint
  | service
deriving DecidableEq

/-- The kind of an error; a wrapped error is of the kind of its outermost wrapper. -/
def kind : Error → Kind
  | .unsupportedTag .. => .unsupportedTag
  | .unboundPathParam .. => .unboundPathParam
  | .duplicateEndpoint .. => .duplicateEndpoint
  | .conflictingHooks .. => .conflictingHooks
  | .config .. => .config
  | .validation .. => .validation
  | .decoding .. | .badTemplate .. | .failedRendering => .serialization
  | .file .. => .file
  | .inEndpoint .. => .endpoint
  | .inService .. => .service

/-- The error is of a kind. -/
def is (e : Error) (kind : Kind) : Bool :=
  e.kind == kind

end Error

/-- The outcome of a step of a build. -/
abbrev Outcome := Except Error

/-- Wraps the error of a step with the name of the endpoint. -/
def Outcome.inEndpoint {α : Type} (name : String) (step : Outcome α) : Outcome α :=
  step.mapError (Error.inEndpoint name)

/-- Wraps the error of a step with the name of the service. -/
def Outcome.inService {α : Type} (name : String) (step : Outcome α) : Outcome α :=
  step.mapError (Error.inService name)

end ClientLoom
