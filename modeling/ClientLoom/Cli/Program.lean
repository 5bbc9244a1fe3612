import ClientLoom.Cli.Arguments
import ClientLoom.Cli.Run

/-!
# The program

A command line with its effect on files, as what is printed and an exit code.
-/

namespace ClientLoom.Program

/-- The name and version of the program. -/
def version : String := "apigen 0.1.0"

/-- How the program is called. -/
def usage : String :=
  "TypeScript clients and TanStack Query hooks from example payloads\n\n" ++
  "Usage: apigen [OPTIONS] <COMMAND>\n\n" ++
  "Commands:\n" ++
  "  build        Generate the client and write every changed file\n" ++
  "  check        Exit with status 1 if any generated file is missing or stale\n" ++
  "  completions  Generate shell completions\n" ++
  "  help         Print this message\n\n" ++
  "Options:\n" ++
  "  -v, --verbose          Enable verbose logging\n" ++
  "      --format <FORMAT>  Output format (json, text, pretty)\n" ++
  "  -h, --help             Print help\n" ++
  "  -V, --version          Print version\n\n" ++
  "Options of build and check:\n" ++
  "  -c, --config <CONFIG>  Config file [env: APIGEN_CONFIG]\n" ++
  "      --dry-run          Print diffs instead of writing (build only)\n"

/-- The completions of a shell: the names of the commands. -/
def completions : Shell → String
  | .bash => "complete -W 'build check completions help' apigen\n"
  | .elvish =>
    "set edit:completion:arg-completer[apigen] = \x7b|@words| put build check completions help \x7d\n"
  | .fish => "complete -c apigen -f -a 'build check completions help'\n"
  | .powershell =>
    "Register-ArgumentCompleter -Native -CommandName apigen -ScriptBlock \x7b " ++
      "'build', 'check', 'completions', 'help' \x7d\n"
  | .zsh => "#compdef apigen\n_arguments '1:command:(build check completions help)'\n"

/-- The messages of an error and of the causes in it, the outermost first. -/
def explainBuild : Error → List String
  | .inEndpoint name cause => (Error.inEndpoint name cause).message :: explainBuild cause
  | .inService name cause => (Error.inService name cause).message :: explainBuild cause
  | .file path fault => [(Error.file path fault).message, fault.message]
  | .decoding cause => (Error.decoding cause).message :: cause.message?.toList
  | error => [error.message]

/-- The messages of an error of the output and of its cause. -/
def explainOutput : OutputError → List String
  | .invalidPattern pattern fault =>
    [(OutputError.invalidPattern pattern fault).message, fault.reason.message]
  | .file path fault => [(OutputError.file path fault).message, fault.message]
  | error => [error.message]

/-- What a message on a failed run says: the steps from the outside in, and the causes. -/
def failureText (failure : Failure) : String :=
  let causes :=
    match failure.cause with
    | .build error => explainBuild error
    | .output error => explainOutput error
  ": ".intercalate (failure.context ++ causes)

/-- What a run prints, what it complains about, and its exit code. -/
structure Result where
  code : ExitCode
  output : String := ""
  complaint : String := ""

variable {m : Type → Type} [Monad m] [FileStore m]

/-- Runs a command. -/
def runCommand (workingDirectory : String) (colored : Bool) (format : OutputFormat)
    (command : Command) : m Result := do
  let outcome ←
    match command with
    | .build config dryRun => (Run.build config workingDirectory dryRun format colored).run
    | .check config => (Run.check config workingDirectory format colored).run
    | .completions shell => pure (.ok ⟨.success, completions shell⟩)
  match outcome with
  | .ok result => pure { code := result.code, output := result.output }
  | .error failure => pure { code := .buildError, complaint := failureText failure }

/-- Runs the program. -/
def run (workingDirectory : String) (environment : Option String) (colored : Bool)
    (arguments : List String) : m Result :=
  match CommandLine.read environment arguments with
  | .help => pure { code := .success, output := usage }
  | .version => pure { code := .success, output := version ++ "\n" }
  | .invalid => pure { code := .invalidInput, complaint := usage }
  | .run invocation =>
    match OutputFormat.ofName invocation.format with
    | .error error => pure { code := .invalidInput, complaint := error.message }
    | .ok format => runCommand workingDirectory colored format invocation.command

end ClientLoom.Program
