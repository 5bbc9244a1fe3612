import ClientLoom.Error
import ClientLoom.Text.CaseMap

/-!
# Formats and exit codes of the command line
-/

namespace ClientLoom

/-- How the summary of a run is printed. -/
inductive OutputFormat
  | json
  | text
  | pretty
deriving DecidableEq

namespace OutputFormat

/-- The name of a format. -/
def name : OutputFormat → String
  | .json => "json"
  | .text => "text"
  | .pretty => "pretty"

/-- The format of a name in any letter case. -/
def ofName (name : String) : Outcome OutputFormat :=
  let lower := name.toList.flatMap Text.lower
  if lower = "json".toList then .ok .json
  else if lower = "text".toList then .ok .text
  else if lower = "pretty".toList then .ok .pretty
  else .error (.validation "format"
    ("invalid output format '" ++ name ++ "' (expected: json, text, or pretty)"))

end OutputFormat

/-- The exit code of a run. -/
structure ExitCode where
  value : Int
deriving DecidableEq

namespace ExitCode

/-- The run did what it was asked to do. -/
def success : ExitCode := ⟨0⟩

/-- Generated files differ from a fresh build. -/
def outdated : ExitCode := ⟨1⟩

/-- The arguments of the run have no meaning. -/
def invalidInput : ExitCode := ⟨2⟩

/-- The configuration could not be loaded or built. -/
def buildError : ExitCode := ⟨3⟩

/-- The code of success. -/
def isSuccess (code : ExitCode) : Bool := code.value == 0

end ExitCode

end ClientLoom
