import ClientLoom.Error
import ClientLoom.Output.Glob

/-!
# Errors of the output
-/

namespace ClientLoom

/-- Why a path cannot be a path of the output. -/
inductive PathFault
  | empty
  | backslash
  | parent
  | current
  | absolute
  | repeated
deriving DecidableEq

/-- The description of a fault. -/
def PathFault.message : PathFault → String
  | .empty => "path is empty"
  | .backslash => "use '/' as separator"
  | .parent => "escapes the output root"
  | .current => "contains '.' segment"
  | .absolute => "must be relative"
  | .repeated => "generated twice"

/-- The cause of a failed export. -/
inductive OutputError
  | invalidPattern (pattern : String) (fault : GlobFault)
  | invalidPath (path : String) (fault : PathFault)
  | file (path : String) (fault : FileFault)

namespace OutputError

/-- The message of an error. -/
def message : OutputError → String
  | .invalidPattern pattern _ => "invalid ignore pattern '" ++ pattern ++ "'"
  | .invalidPath path fault => "invalid output path '" ++ path ++ "': " ++ fault.message
  | .file path _ => "I/O error at " ++ path

/-- The kinds of errors. -/
inductive Kind
  | invalidPattern
  | invalidPath
  | file
deriving DecidableEq

/-- The kind of an error. -/
def kind : OutputError → Kind
  | .invalidPattern .. => .invalidPattern
  | .invalidPath .. => .invalidPath
  | .file .. => .file

/-- The error is of a kind. -/
def is (e : OutputError) (kind : Kind) : Bool :=
  e.kind == kind

end OutputError

end ClientLoom
