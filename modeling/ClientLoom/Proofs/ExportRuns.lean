import ClientLoom.Output.Export
import ClientLoom.Proofs.DiskPaths

/-!
# Runs of an export

What the steps of an export do to a file system.  For one file there are four cases: it is left
alone, it cannot be read, it has its content already, or it changes, which a dry run only reports.
`OutputTree.of_run_exportFile` sums up what the export of one file does if it succeeds.
-/

namespace ClientLoom

namespace FileSystem

/-! ## Steps on a file system -/

/-- The outcome of a step that starts in the file system, and the file system after it. -/
def run {ε α : Type} (fs : FileSystem) (step : ExceptT ε (StateM FileSystem) α) :
    Except ε α × FileSystem :=
  step.run fs

section

variable {ε α β : Type} {fs final : FileSystem} {step : ExceptT ε (StateM FileSystem) α}
  {next : α → ExceptT ε (StateM FileSystem) β}

@[simp] theorem run_pure (value : α) :
    fs.run (pure value : ExceptT ε (StateM FileSystem) α) = (.ok value, fs) :=
  rfl

theorem run_bind_ok {value : α} (h : fs.run step = (.ok value, final)) :
    fs.run (step >>= next) = final.run (next value) := by
  unfold run at h ⊢
  rw [ClientLoom.run_bind, h]

theorem run_bind_error {e : ε} (h : fs.run step = (.error e, final)) :
    fs.run (step >>= next) = (.error e, final) := by
  unfold run at h ⊢
  rw [ClientLoom.run_bind, h]

theorem run_bind_eq_ok {result : β} (h : fs.run (step >>= next) = (.ok result, final)) :
    ∃ value middle, fs.run step = (.ok value, middle) ∧
      middle.run (next value) = (.ok result, final) := by
  cases hstep : fs.run step with
  | mk outcome middle =>
      cases outcome with
      | error e =>
          rw [run_bind_error hstep] at h
          cases h
      | ok value =>
          rw [run_bind_ok hstep] at h
          exact ⟨value, middle, rfl, h⟩

/-- Steps that change nothing can be chained. -/
theorem snd_run_bind (hstep : (fs.run step).2 = fs)
    (hnext : ∀ value, (fs.run (next value)).2 = fs) :
    (fs.run (step >>= next)).2 = fs := by
  cases h : fs.run step with
  | mk outcome middle =>
      rw [h] at hstep
      obtain rfl : middle = fs := hstep
      cases outcome with
      | error e => rw [run_bind_error h]
      | ok value =>
          rw [run_bind_ok h]
          exact hnext value

end

/-- The text of the file at a path, or none if nothing is found. -/
def existing (fs : FileSystem) (path : String) : Except FileFault (Option String) :=
  match fs.read path >>= FileContent.asText with
  | .ok text => .ok (some text)
  | .error .notFound => .ok none
  | .error fault => .error fault

@[simp] theorem existing_eq_none {fs : FileSystem} {path : String} :
    fs.existing path = .ok none ↔ fs.read path = .error .notFound := by
  unfold existing
  cases hread : fs.read path with
  | error fault => cases fault <;> simp [bind, Except.bind]
  | ok content => cases content <;> simp [bind, Except.bind, FileContent.asText]

@[simp] theorem existing_eq_some {fs : FileSystem} {path text : String} :
    fs.existing path = .ok (some text) ↔ fs.read path = .ok (.text text) := by
  unfold existing
  cases hread : fs.read path with
  | error fault => cases fault <;> simp [bind, Except.bind]
  | ok content => cases content <;> simp [bind, Except.bind, FileContent.asText]

theorem Grown.existing_eq {touched : Location → Prop} {before after : FileSystem}
    (h : Grown touched before after) {path : String} (huntouched : ¬ touched (before.place path))
    (hne : before.read path ≠ .error .notFound) :
    after.existing path = before.existing path := by
  unfold existing
  rw [h.read_eq huntouched hne]

end FileSystem

@[simp] theorem FileStatus.isChange_ofContent {current : Option String} {content : String} :
    (FileStatus.ofContent current content).isChange = false ↔ current = some content := by
  cases current with
  | none => simp [ofContent, isChange]
  | some text =>
      by_cases htext : text = content
      · simp [ofContent, isChange, htext]
      · simp [ofContent, isChange, htext]

@[simp] theorem FileStatus.ofContent_eq_created {current : Option String} {content : String} :
    FileStatus.ofContent current content = .created ↔ current = none := by
  cases current with
  | none => simp [ofContent]
  | some text =>
      by_cases htext : text = content
      · simp [ofContent, htext]
      · simp [ofContent, htext]

namespace OutputTree

open FileSystem

variable {tree : OutputTree} {options : ExportOptions} {file : GeneratedFile}
  {files : List GeneratedFile} {fs final : FileSystem}

/-! ## One file -/

theorem run_access {α : Type} (path : String)
    (action : StateM FileSystem (Except FileFault α)) :
    fs.run (access path action) =
      ((action fs).1.mapError (OutputError.file path), (action fs).2) :=
  rfl

theorem run_access_eq_ok {α : Type} {path : String} {value : α}
    {action : StateM FileSystem (Except FileFault α)}
    (h : fs.run (access path action) = (.ok value, final)) : action fs = (.ok value, final) := by
  rw [run_access] at h
  obtain ⟨houtcome, hfinal⟩ := Prod.mk.inj h
  exact Prod.ext (mapError_eq_ok.1 houtcome) hfinal

@[simp] theorem run_readExisting (fs : FileSystem) (path : String) :
    fs.run (readExisting path) = ((fs.existing path).mapError (OutputError.file path), fs) := by
  show (match fs.read path >>= FileContent.asText with
    | .ok text => pure (.ok (some text))
    | .error .notFound => pure (.ok none)
    | .error fault => pure (.error (.file path fault)) :
      StateM FileSystem (Except OutputError (Option String))) fs = _
  unfold existing
  generalize fs.read path >>= FileContent.asText = outcome
  cases outcome with
  | ok text => rfl
  | error fault => cases fault <;> rfl

theorem commit_eq_ok {change : FileSystem → Except FileFault FileSystem}
    (h : commit change fs = (.ok (), final)) : change fs = .ok final := by
  unfold commit at h
  split at h
  · rename_i changed hchange
    obtain ⟨-, rfl⟩ := Prod.mk.inj h
    exact hchange
  · cases h

/-- A file that has been written is read as it was written, and nothing else is touched. -/
theorem grown_writeFile {atomic : Bool} {path text : String}
    (h : fs.run (writeFile atomic path text) = (.ok (), final)) :
    Grown (· = fs.place path) fs final ∧ final.read path = .ok (.text text) := by
  obtain ⟨_, middle, hmake, hwrite⟩ := run_bind_eq_ok h
  have hmiddle : Grown (fun _ => False) fs middle := by
    have hgrown := grown_ensureWithin (((Path.parent? path).getD ".").length + 1) fs
      ((Path.parent? path).getD ".")
    have hmade : ensureWithin _ fs _ = (.ok (), middle) := run_access_eq_ok hmake
    rwa [hmade] at hgrown
  have hwritten : Written path (.text text) middle final := by
    cases atomic with
    | true => exact written_replace (commit_eq_ok (run_access_eq_ok hwrite))
    | false => exact written_overwrite (commit_eq_ok (run_access_eq_ok hwrite))
  refine ⟨?_, hwritten.read_eq⟩
  have hplace := place_congr hmiddle.directory path
  rw [← hplace]
  exact (hmiddle.mono fun _ habsurd => habsurd.elim).trans hwritten.grown

theorem run_exportFile_ignored (hignored : tree.ignores file.path = true) :
    fs.run (tree.exportFile options file) =
      (.ok { path := file.path, status := .ignored }, fs) := by
  unfold exportFile
  rw [if_pos hignored]
  rfl

section

variable (hkept : tree.ignores file.path = false)

include hkept

theorem run_exportFile_error {fault : FileFault}
    (hexisting : fs.existing (tree.diskPath file.path) = .error fault) :
    fs.run (tree.exportFile options file) =
      (.error (.file (tree.diskPath file.path) fault), fs) := by
  unfold exportFile
  rw [if_neg (by simp [hkept])]
  refine run_bind_error ?_
  rw [run_readExisting, hexisting]
  rfl

theorem run_exportFile_unchanged
    (hexisting : fs.existing (tree.diskPath file.path) = .ok (some file.content)) :
    fs.run (tree.exportFile options file) =
      (.ok { path := file.path, status := .unchanged }, fs) := by
  have hread : fs.run (readExisting (tree.diskPath file.path)) = (.ok (some file.content), fs) := by
    rw [run_readExisting, hexisting]
    rfl
  unfold exportFile
  rw [if_neg (by simp [hkept]), run_bind_ok hread]
  simp [FileStatus.ofContent, FileStatus.isChange, run_pure]

theorem run_exportFile_dry {current : Option String} (hdry : options.dryRun = true)
    (hexisting : fs.existing (tree.diskPath file.path) = .ok current) :
    ∃ diff, fs.run (tree.exportFile options file) =
      (.ok ⟨file.path, FileStatus.ofContent current file.content, diff⟩, fs) := by
  have hread : fs.run (readExisting (tree.diskPath file.path)) = (.ok current, fs) := by
    rw [run_readExisting, hexisting]
    rfl
  unfold exportFile
  rw [if_neg (by simp [hkept]), run_bind_ok hread]
  by_cases hchange : (FileStatus.ofContent current file.content).isChange = true
  · refine ⟨some (Diff.unified file.path current file.content), ?_⟩
    simp [hchange, hdry, run_pure]
  · refine ⟨none, ?_⟩
    simp [hchange, run_pure]

theorem run_exportFile_write {current : Option String} (hreal : options.dryRun = false)
    (hexisting : fs.existing (tree.diskPath file.path) = .ok current)
    (hchange : (FileStatus.ofContent current file.content).isChange = true) :
    fs.run (tree.exportFile options file) =
      fs.run (writeFile options.atomic (tree.diskPath file.path) file.content >>= fun _ =>
        pure { path := file.path, status := FileStatus.ofContent current file.content }) := by
  have hread : fs.run (readExisting (tree.diskPath file.path)) = (.ok current, fs) := by
    rw [run_readExisting, hexisting]
    rfl
  unfold exportFile
  rw [if_neg (by simp [hkept]), run_bind_ok hread]
  simp [hchange, hreal]

/-- What the export of one file does: afterwards the file has its content, and nothing else is
touched; the status tells what was found before. -/
theorem of_run_exportFile {outcome : FileOutcome} (hreal : options.dryRun = false)
    (h : fs.run (tree.exportFile options file) = (.ok outcome, final)) :
    Grown (· = fs.place (tree.diskPath file.path)) fs final ∧
      final.read (tree.diskPath file.path) = .ok (.text file.content) ∧
        ∃ current, fs.existing (tree.diskPath file.path) = .ok current ∧
          outcome = { path := file.path, status := FileStatus.ofContent current file.content } := by
  cases hexisting : fs.existing (tree.diskPath file.path) with
  | error fault =>
      rw [run_exportFile_error hkept hexisting] at h
      cases h
  | ok current =>
      by_cases hchange : (FileStatus.ofContent current file.content).isChange = true
      · rw [run_exportFile_write hkept hreal hexisting hchange] at h
        obtain ⟨_, middle, hwrite, hpure⟩ := run_bind_eq_ok h
        obtain ⟨hgrown, hread⟩ := grown_writeFile hwrite
        cases hpure
        exact ⟨hgrown, hread, current, rfl, rfl⟩
      · obtain rfl := FileStatus.isChange_ofContent.1 (Bool.eq_false_iff.2 hchange)
        rw [run_exportFile_unchanged hkept hexisting] at h
        cases h
        refine ⟨.refl _ fs, existing_eq_some.1 hexisting, _, rfl, ?_⟩
        simp [FileStatus.ofContent]

end

/-! ## All files -/

theorem run_exportFiles_cons {outcomes : List FileOutcome}
    (h : fs.run (tree.exportFiles options (file :: files)) = (.ok outcomes, final)) :
    ∃ outcome middle others, fs.run (tree.exportFile options file) = (.ok outcome, middle) ∧
      middle.run (tree.exportFiles options files) = (.ok others, final) ∧
        outcomes = outcome :: others := by
  obtain ⟨outcome, middle, hfile, h⟩ := run_bind_eq_ok h
  obtain ⟨others, after, hfiles, h⟩ := run_bind_eq_ok h
  cases h
  exact ⟨outcome, middle, others, hfile, hfiles, rfl⟩

theorem run_exportFiles_of_cons {outcome : FileOutcome} {others : List FileOutcome}
    {middle : FileSystem} (hfile : fs.run (tree.exportFile options file) = (.ok outcome, middle))
    (hfiles : middle.run (tree.exportFiles options files) = (.ok others, final)) :
    fs.run (tree.exportFiles options (file :: files)) = (.ok (outcome :: others), final) := by
  unfold exportFiles
  rw [run_bind_ok hfile, run_bind_ok hfiles]
  rfl

/-- A dry run changes nothing. -/
theorem snd_run_exportFile_dry (tree : OutputTree) (file : GeneratedFile) (fs : FileSystem)
    (hdry : options.dryRun = true) :
    (fs.run (tree.exportFile options file)).2 = fs := by
  cases hkept : tree.ignores file.path with
  | true => rw [run_exportFile_ignored hkept]
  | false =>
      cases hexisting : fs.existing (tree.diskPath file.path) with
      | error fault => rw [run_exportFile_error hkept hexisting]
      | ok current =>
          obtain ⟨diff, hrun⟩ := run_exportFile_dry hkept hdry hexisting
          rw [hrun]

theorem snd_run_exportFiles_dry (tree : OutputTree) (files : List GeneratedFile) (fs : FileSystem)
    (hdry : options.dryRun = true) :
    (fs.run (tree.exportFiles options files)).2 = fs := by
  induction files with
  | nil => rfl
  | cons file files ih =>
      unfold exportFiles
      refine snd_run_bind (snd_run_exportFile_dry tree file fs hdry) fun outcome => ?_
      exact snd_run_bind ih fun others => rfl

/-! ## Files on disk -/

/-- The files that are not left alone. -/
def kept (tree : OutputTree) (files : List GeneratedFile) : List GeneratedFile :=
  files.filter fun file => !tree.ignores file.path

/-- Where the files that are not left alone stand on disk. -/
def places (tree : OutputTree) (fs : FileSystem) (files : List GeneratedFile) : List Location :=
  (tree.kept files).map fun file => fs.place (tree.diskPath file.path)

theorem kept_cons_ignored (hignored : tree.ignores file.path = true) :
    tree.kept (file :: files) = tree.kept files :=
  List.filter_cons_of_neg (by simp [hignored])

theorem kept_cons (hkept : tree.ignores file.path = false) :
    tree.kept (file :: files) = file :: tree.kept files :=
  List.filter_cons_of_pos (by simp [hkept])

theorem places_cons_ignored (hignored : tree.ignores file.path = true) :
    tree.places fs (file :: files) = tree.places fs files := by
  rw [places, kept_cons_ignored hignored, places]

theorem places_cons (hkept : tree.ignores file.path = false) :
    tree.places fs (file :: files) =
      fs.place (tree.diskPath file.path) :: tree.places fs files := by
  rw [places, kept_cons hkept, List.map_cons, places]

theorem places_congr (h : final.directory = fs.directory) :
    tree.places final files = tree.places fs files := by
  unfold places
  simp only [place_congr h]

/-! ## The whole tree -/

theorem run_exportAll_eq_ok {report : ExportReport}
    (h : fs.run (tree.exportAll options) = (.ok report, final)) :
    fs.run (tree.exportFiles options tree.files) = (.ok report.files, final) := by
  obtain ⟨outcomes, middle, hfiles, h⟩ := run_bind_eq_ok h
  cases h
  exact hfiles

theorem run_exportAll_of_files {outcomes : List FileOutcome}
    (h : fs.run (tree.exportFiles options tree.files) = (.ok outcomes, final)) :
    fs.run (tree.exportAll options) = (.ok ⟨tree.root, options.dryRun, outcomes⟩, final) := by
  unfold exportAll
  rw [run_bind_ok h, run_pure]

theorem snd_run_check (tree : OutputTree) (fs : FileSystem) : (fs.run tree.check).2 = fs := by
  unfold check exportAll
  exact snd_run_bind (snd_run_exportFiles_dry tree tree.files fs rfl) fun outcomes => rfl

end OutputTree

end ClientLoom
