/-!
# Reports of an export
-/

namespace ClientLoom

/-- What becomes of a file of the output. -/
inductive FileStatus
  /-- There was no such file. -/
  | created
  /-- The file had another content. -/
  | updated
  /-- The file had the same content. -/
  | unchanged
  /-- The file is left alone. -/
  | ignored
deriving DecidableEq

namespace FileStatus

/-- The name of a status. -/
def name : FileStatus → String
  | .created => "created"
  | .updated => "updated"
  | .unchanged => "unchanged"
  | .ignored => "ignored"

/-- The content of the file changes. -/
def isChange : FileStatus → Bool
  | .created | .updated => true
  | .unchanged | .ignored => false

/-- The status of a file that is not left alone, by its current content. -/
def ofContent (current : Option String) (generated : String) : FileStatus :=
  match current with
  | none => .created
  | some text => if text = generated then .unchanged else .updated

end FileStatus

/-- The outcome for one file; a change that is not made is shown as a diff. -/
structure FileOutcome where
  path : String
  status : FileStatus
  diff : Option String := none
deriving DecidableEq

/-- The outcomes for all files, in their order. -/
structure ExportReport where
  root : String
  dryRun : Bool
  files : List FileOutcome
deriving DecidableEq

namespace ExportReport

/-- The number of files with a status. -/
def count (report : ExportReport) (status : FileStatus) : Nat :=
  report.files.countP fun file => file.status == status

/-- The files that change. -/
def changes (report : ExportReport) : List FileOutcome :=
  report.files.filter fun file => file.status.isChange

/-- The number of files that change. -/
def changedCount (report : ExportReport) : Nat :=
  report.changes.length

/-- Some file changes. -/
def hasChanges (report : ExportReport) : Bool :=
  report.files.any fun file => file.status.isChange

end ExportReport

end ClientLoom
