import ClientLoom.Diff.Unified
import ClientLoom.FileSystem.Store
import ClientLoom.Output.Report
import ClientLoom.Output.Tree

/-!
# Export of an output tree

Every file is compared with what stands on disk, in order.  A file that is left alone is neither
read nor written, one with the same content is not written, and a dry run shows a diff where
another run writes.  The first failure ends the export; files before it stay as they were written.
-/

namespace ClientLoom

/-- How an export is done. -/
structure ExportOptions where
  /-- A file is written aside and then put in place. -/
  atomic : Bool := true
  /-- Nothing is written. -/
  dryRun : Bool := false

namespace OutputTree

variable {m : Type → Type} [Monad m] [FileStore m]

/-- A step of an export. -/
abbrev Step (m : Type → Type) (α : Type) := ExceptT OutputError m α

/-- An access to a file as a step; a fault is reported with the path. -/
def access {α : Type} (path : String) (action : m (Except FileFault α)) : Step m α :=
  ExceptT.mk ((·.mapError (OutputError.file path)) <$> action)

/-- The text of a file, or none if there is no such file. -/
def readExisting (path : String) : Step m (Option String) :=
  ExceptT.mk do
    match ← FileStore.read path with
    | .ok text => pure (.ok (some text))
    | .error .notFound => pure (.ok none)
    | .error fault => pure (.error (.file path fault))

/-- Writes a file and makes the directories above it. -/
def writeFile (atomic : Bool) (path text : String) : Step m Unit := do
  let parent := (Path.parent? path).getD "."
  access parent (FileStore.makeDirectories parent)
  if atomic then access path (FileStore.replace path text)
  else access path (FileStore.overwrite path text)

/-- Exports one file. -/
def exportFile (tree : OutputTree) (options : ExportOptions) (file : GeneratedFile) :
    Step m FileOutcome := do
  if tree.ignores file.path then
    pure { path := file.path, status := .ignored }
  else
    let path := tree.diskPath file.path
    let current ← readExisting path
    let status := FileStatus.ofContent current file.content
    if !status.isChange then
      pure { path := file.path, status }
    else if options.dryRun then
      let diff := Diff.unified file.path current file.content
      pure { path := file.path, status, diff := some diff }
    else
      writeFile options.atomic path file.content
      pure { path := file.path, status }

/-- Exports files one after the other. -/
def exportFiles (tree : OutputTree) (options : ExportOptions) :
    List GeneratedFile → Step m (List FileOutcome)
  | [] => pure []
  | file :: rest => do
    let outcome ← tree.exportFile options file
    let others ← exportFiles tree options rest
    pure (outcome :: others)

/-- Exports the tree. -/
def exportAll (tree : OutputTree) (options : ExportOptions) : Step m ExportReport := do
  let files ← tree.exportFiles options tree.files
  pure ⟨tree.root, options.dryRun, files⟩

/-- Compares the tree with what stands on disk. -/
def check (tree : OutputTree) : Step m ExportReport :=
  tree.exportAll { dryRun := true }

end OutputTree

end ClientLoom
