import ClientLoom.Cli.Summary
import ClientLoom.Client
import ClientLoom.Decode.Config
import ClientLoom.Output.Export
import ClientLoom.Text.Quoted

/-!
# Runs

A run loads a configuration, compiles it and exports the files, or compares them with what stands
on disk.  A failure carries what the run was about to do, the outermost step first.
-/

namespace ClientLoom

/-- The cause of a failed run. -/
inductive FailureCause
  | build (error : Error)
  | output (error : OutputError)

/-- A failed run: what it was about to do, the outermost step first, and the cause. -/
structure Failure where
  context : List String
  cause : FailureCause

/-- A configuration and the path from which it was loaded. -/
structure LoadedConfig where
  path : String
  config : ApiConfig

namespace LoadedConfig

/-- The directory of the configuration. -/
def directory (loaded : LoadedConfig) : String :=
  (Path.parent? loaded.path).getD "."

/-- The directory of the output. -/
def outputRoot (loaded : LoadedConfig) : String :=
  loaded.config.outputRoot loaded.directory

end LoadedConfig

/-- What a run prints, and its exit code. -/
structure RunResult where
  code : ExitCode
  output : String

namespace ApiConfig

/-- The names under which a configuration is looked for. -/
def defaultFiles : List String := ["api.config.json", "api.config.toml"]

/-- The configuration in the text of the file at a path; the name of the file tells the format. -/
def ofFile (path text : String) : Outcome ApiConfig :=
  let extension := (Path.extension? path).getD ""
  if extension = "json" then ofJsonText text
  else if extension = "toml" then ofTomlText text
  else .error (.config ("unsupported config extension " ++ Text.quoted extension ++ " for " ++ path ++
    " (expected .json or .toml)"))

variable {m : Type → Type} [Monad m] [FileStore m]

/-- Loads the configuration at a path. -/
def load (path : String) : m (Outcome ApiConfig) := do
  match ← FileStore.read path with
  | .error fault => pure (.error (.file path fault))
  | .ok text => pure (ofFile path text)

/-- The first file of some names in a directory. -/
def firstFile (directory : String) : List String → m (Option String)
  | [] => pure none
  | name :: rest => do
    let path := Path.join directory name
    if ← FileStore.isFile path then pure (some path) else firstFile directory rest

/-- Looks for a configuration in a directory. -/
def discover (directory : String) : m (Outcome String) := do
  match ← firstFile directory defaultFiles with
  | some path => pure (.ok path)
  | none =>
    pure (.error (.config ("no " ++ " or ".intercalate defaultFiles ++ " found in " ++ directory)))

end ApiConfig

namespace Run

variable {m : Type → Type} [Monad m] [FileStore m]

/-- A step of a run. -/
abbrev Stage (m : Type → Type) (α : Type) := ExceptT Failure m α

/-- A step of the build that the text describes. -/
def building {α : Type} (context : String) (step : m (Outcome α)) : Stage m α :=
  ExceptT.mk ((·.mapError fun error => ⟨[context], .build error⟩) <$> step)

/-- A step of the export that the text describes. -/
def exporting {α : Type} (context : String) (step : m (Except OutputError α)) : Stage m α :=
  ExceptT.mk ((·.mapError fun error => ⟨[context], .output error⟩) <$> step)

/-- Loads the configuration at a path, or one that is found in the working directory. -/
def loadConfig (path? : Option String) (workingDirectory : String) : Stage m LoadedConfig := do
  let path ←
    match path? with
    | some path => pure path
    | none =>
      building ("pass --config or create one of " ++ ", ".intercalate ApiConfig.defaultFiles)
        (ApiConfig.discover workingDirectory)
  let config ← building ("failed to load config " ++ path) (ApiConfig.load path)
  pure ⟨path, config⟩

/-- The output tree of a configuration. -/
def buildTree (loaded : LoadedConfig) : Except Failure OutputTree := do
  let files ← (Client.generate loaded.config).mapError fun error =>
    ⟨["failed to compile " ++ loaded.path], .build error⟩
  let draft : OutputDraft := { root := loaded.outputRoot }
  ((draft.addFiles files).addPatterns loaded.config.ignorePattern).build.mapError fun error =>
    ⟨["invalid output layout"], .output error⟩

/-- What is printed at the end of a run. -/
def printed (loaded : LoadedConfig) (report : ExportReport) (format : OutputFormat)
    (colored : Bool) : String :=
  Summary.render ⟨loaded.path, report⟩ format colored ++ "\n"

/-- Writes the files of a configuration. -/
def build (path? : Option String) (workingDirectory : String) (dryRun : Bool)
    (format : OutputFormat) (colored : Bool) : Stage m RunResult := do
  let loaded ← loadConfig path? workingDirectory
  let tree ← ExceptT.mk (pure (buildTree loaded))
  let report ← exporting ("failed to write " ++ tree.root) (tree.exportAll { dryRun }).run
  pure ⟨.success, printed loaded report format colored⟩

/-- Compares the files of a configuration with what stands on disk. -/
def check (path? : Option String) (workingDirectory : String) (format : OutputFormat)
    (colored : Bool) : Stage m RunResult := do
  let loaded ← loadConfig path? workingDirectory
  let tree ← ExceptT.mk (pure (buildTree loaded))
  let report ← exporting ("failed to read " ++ tree.root) tree.check.run
  pure ⟨if report.hasChanges then .outdated else .success, printed loaded report format colored⟩

end Run

end ClientLoom
