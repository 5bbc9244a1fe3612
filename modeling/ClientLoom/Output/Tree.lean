import ClientLoom.Output.Error
import ClientLoom.Output.Path

/-!
# Output trees

An output tree holds the files of a build under a root, and the globs of the files that are left
alone.  It is drafted file by file; the first fault of a path is reported at the end, and then the
first fault of a glob.
-/

namespace ClientLoom

/-- The globs of the files that are left alone. -/
structure IgnoreRules where
  globs : List Glob

namespace IgnoreRules

/-- Drops every `./` in front. -/
def stripCurrent : List Char → List Char
  | '.' :: '/' :: rest => stripCurrent rest
  | pattern => pattern

/-- The glob of a pattern. -/
def glob (pattern : String) : Except OutputError Glob :=
  (Glob.ofText (String.ofList (stripCurrent pattern.toList))).mapError
    (OutputError.invalidPattern pattern)

/-- The rules of patterns; the first bad pattern is reported. -/
def ofPatterns (patterns : List String) : Except OutputError IgnoreRules :=
  IgnoreRules.mk <$> patterns.mapM glob

/-- Some glob describes the path. -/
def ignores (rules : IgnoreRules) (path : String) : Bool :=
  rules.globs.any (·.covers path)

end IgnoreRules

namespace Path

/-- The fault of a step of a path of the output. -/
def Component.fault? : Component → Option PathFault
  | .name _ => none
  | .parent => some .parent
  | .current => some .current
  | .root => some .absolute

/-- The fault of a path of the output; none if it stays below the root. -/
def outputFault? (path : String) : Option PathFault :=
  if path.isEmpty then some .empty
  else if path.toList.contains '\\' then some .backslash
  else (components path).findSome? Component.fault?

end Path

/-- The files of a build under a root. -/
structure OutputTree where
  root : String
  files : List GeneratedFile
  ignore : IgnoreRules

namespace OutputTree

/-- The file at the path is left alone. -/
def ignores (tree : OutputTree) (path : String) : Bool :=
  tree.ignore.ignores path

/-- Where a file of the tree stands on disk. -/
def diskPath (tree : OutputTree) (path : String) : String :=
  (Path.segments path.toList).foldl (fun front segment => Path.join front (String.ofList segment))
    tree.root

end OutputTree

/-- An output tree under way. -/
structure OutputDraft where
  root : String
  files : List GeneratedFile := []
  patterns : List String := []
  faults : List OutputError := []

namespace OutputDraft

/-- The fault of a path that is added to a draft. -/
def fault? (draft : OutputDraft) (path : String) : Option PathFault :=
  (Path.outputFault? path).or
    (if draft.files.any (·.path == path) then some .repeated else none)

/-- Adds a file, or the fault of its path. -/
def addFile (draft : OutputDraft) (file : GeneratedFile) : OutputDraft :=
  match draft.fault? file.path with
  | some fault => { draft with faults := draft.faults ++ [.invalidPath file.path fault] }
  | none => { draft with files := draft.files ++ [file] }

/-- Adds files one after the other. -/
def addFiles (draft : OutputDraft) (files : List GeneratedFile) : OutputDraft :=
  files.foldl addFile draft

/-- Adds patterns of files that are left alone. -/
def addPatterns (draft : OutputDraft) (patterns : List String) : OutputDraft :=
  { draft with patterns := draft.patterns ++ patterns }

/-- The finished tree, or the first fault. -/
def build (draft : OutputDraft) : Except OutputError OutputTree :=
  match draft.faults with
  | fault :: _ => .error fault
  | [] => do
    let ignore ← IgnoreRules.ofPatterns draft.patterns
    pure ⟨draft.root, draft.files, ignore⟩

end OutputDraft

end ClientLoom
