/-!
# Paths and generated files

Paths are texts with `/` between segments.  A path with `/` in front is absolute.  Empty segments
and segments `.` mean nothing, except a `.` at the very start of a relative path.  A generated file
is a path and a content.
-/

namespace ClientLoom

namespace Path

/-- The text split at every `/`. -/
def segments : List Char → List (List Char)
  | [] => [[]]
  | c :: rest =>
    if c = '/' then [] :: segments rest
    else
      match segments rest with
      | [] => [[c]]
      | first :: others => (c :: first) :: others

/-- A path that starts at the root. -/
def isAbsolute (path : String) : Bool :=
  path.toList.head? == some '/'

/-- A path seen from a directory: an absolute path stands for itself. -/
def join (directory path : String) : String :=
  if isAbsolute path then path
  else if directory.isEmpty || directory.toList.getLast? == some '/' then directory ++ path
  else directory ++ "/" ++ path

/-- A step of a path. -/
inductive Component
  | root
  | current
  | parent
  | name (text : List Char)
deriving DecidableEq

/-- The step of a segment; none for a segment that means nothing. -/
def component? (segment : List Char) : Option Component :=
  if segment = [] ∨ segment = ['.'] then none
  else if segment = ['.', '.'] then some .parent
  else some (.name segment)

/-- The steps of a path, as characters. -/
def componentsOf (path : List Char) : List Component :=
  let segs := segments path
  let steps := segs.filterMap component?
  if path.head? = some '/' then .root :: steps
  else if segs.head? = some ['.'] then .current :: steps
  else steps

/-- The steps of a path. -/
def components (path : String) : List Component :=
  componentsOf path.toList

/-- Drops segments that mean nothing at the end, each with the `/` before it; what stands in front
in reverse. -/
def trimEnd : List Char → List Char
  | '/' :: rest => trimEnd rest
  | '.' :: '/' :: rest => trimEnd ('/' :: rest)
  | cs => cs

/-- The directory of a path: the path without its last step; none if it has no such step. -/
def parent? (path : String) : Option String :=
  match (components path).getLast? with
  | none | some .root => none
  | some _ =>
    let front := ((trimEnd path.toList.reverse).dropWhile (· ≠ '/'))
    let kept := trimEnd front
    if kept.isEmpty && isAbsolute path then some "/" else some (String.ofList kept.reverse)

/-- The last step of a path, if it is a name. -/
def fileName? (path : String) : Option (List Char) :=
  match (components path).getLast? with
  | some (.name text) => some text
  | _ => none

/-- What follows the last dot of a file name, if the dot is not in front. -/
def extension? (path : String) : Option String := do
  let name ← fileName? path
  let reversed := name.reverse
  match reversed.dropWhile (· ≠ '.') with
  | '.' :: _ :: _ => some (String.ofList (reversed.takeWhile (· ≠ '.')).reverse)
  | _ => none

end Path

/-- A generated file; the path is relative to the output. -/
structure GeneratedFile where
  path : String
  content : String
deriving DecidableEq

/-- The first file with a path. -/
def GeneratedFile.find? (files : List GeneratedFile) (path : String) : Option GeneratedFile :=
  files.find? fun file => file.path == path

end ClientLoom
