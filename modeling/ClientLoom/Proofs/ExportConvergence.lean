import ClientLoom.Cli.Run
import ClientLoom.Proofs.ExportFrame

/-!
# An export converges

An export that succeeds leaves every file of the tree with its content, so that nothing is left to
change.  A check never changes the file system, and it succeeds wherever the export does.  The two
list the same paths, and the same statuses unless a file behind the first one is hidden: the first
file that the export writes makes the directories that were missing on the way to the root, and
what was hidden is found after that.  The main statement is `OutputTree.exportAll_converges`.
-/

namespace ClientLoom

namespace OutputTree

open FileSystem

variable {tree : OutputTree} {options : ExportOptions} {file : GeneratedFile}
  {files : List GeneratedFile} {fs final : FileSystem}

/-! ## Files that have their content -/

/-- The outcome for a file that has its content already. -/
def settledOutcome (tree : OutputTree) (file : GeneratedFile) : FileOutcome :=
  { path := file.path, status := if tree.ignores file.path then .ignored else .unchanged }

/-- Where all files have their content, an export finds nothing to do. -/
theorem run_exportFiles_settled
    (h : ∀ file ∈ tree.kept files,
      fs.read (tree.diskPath file.path) = .ok (.text file.content)) :
    fs.run (tree.exportFiles options files) = (.ok (files.map tree.settledOutcome), fs) := by
  induction files with
  | nil => rfl
  | cons file files ih =>
      have hfile : fs.run (tree.exportFile options file) =
          (.ok (tree.settledOutcome file), fs) := by
        cases hkept : tree.ignores file.path with
        | true => simp [run_exportFile_ignored hkept, settledOutcome, hkept]
        | false =>
            have hread := h file (by rw [kept_cons hkept]; exact List.mem_cons_self)
            simp [run_exportFile_unchanged hkept (existing_eq_some.2 hread), settledOutcome, hkept]
      have hfiles := ih fun other hother => h other (by
        rw [kept, List.mem_filter] at hother ⊢
        exact ⟨List.mem_cons_of_mem file hother.1, hother.2⟩)
      exact run_exportFiles_of_cons hfile hfiles

/-- After an export all files have their content, and only their places are touched. -/
theorem of_run_exportFiles {outcomes : List FileOutcome} (hreal : options.dryRun = false)
    (hdistinct : (tree.places fs files).Nodup)
    (h : fs.run (tree.exportFiles options files) = (.ok outcomes, final)) :
    Grown (· ∈ tree.places fs files) fs final ∧
      ∀ file ∈ tree.kept files,
        final.read (tree.diskPath file.path) = .ok (.text file.content) := by
  have hlaid := laid_of_run_exportFiles hreal h
  rw [← List.append_nil files] at hdistinct
  exact ⟨hlaid.grown, (hlaid.of_nodup hdistinct).1⟩

/-! ## The check and the export side by side -/

/-- The outcomes of a check beside those of an export: the same paths, and the same statuses if
`visible` holds; where `exposed` holds, only then. -/
structure Beside (visible exposed : Prop) (previews outcomes : List FileOutcome) : Prop where
  paths : previews.map (·.path) = outcomes.map (·.path)
  statuses : visible → previews.map (·.status) = outcomes.map (·.status)
  visible_of_statuses : exposed → previews.map (·.status) = outcomes.map (·.status) → visible

namespace Beside

variable {visible exposed : Prop} {previews outcomes : List FileOutcome}
  {preview outcome : FileOutcome}

theorem nil (h : visible) : Beside visible exposed [] [] :=
  ⟨rfl, fun _ => rfl, fun _ _ => h⟩

/-- Equal outcomes in front make no difference. -/
theorem cons (h : Beside visible exposed previews outcomes) (hpath : preview.path = outcome.path)
    (hstatus : preview.status = outcome.status) :
    Beside visible exposed (preview :: previews) (outcome :: outcomes) where
  paths := by rw [List.map_cons, List.map_cons, hpath, h.paths]
  statuses := by
    intro hvisible
    rw [List.map_cons, List.map_cons, hstatus, h.statuses hvisible]
  visible_of_statuses := fun hexposed hstatuses =>
    h.visible_of_statuses hexposed (List.cons.inj hstatuses).2

theorem imp {exposed' : Prop} (h : Beside visible exposed previews outcomes)
    (himp : exposed' → exposed) : Beside visible exposed' previews outcomes :=
  ⟨h.paths, h.statuses, fun hexposed => h.visible_of_statuses (himp hexposed)⟩

end Beside

/-- What a check from an earlier file system says about a file that the export comes to: the same,
unless the file was hidden and has come to light since. -/
theorem run_exportFile_preview {start : FileSystem} {touched : Location → Prop}
    {dry : ExportOptions} {outcome : FileOutcome} (hkept : tree.ignores file.path = false)
    (hdry : dry.dryRun = true) (hreal : options.dryRun = false)
    (hgrown : Grown touched start fs)
    (huntouched : ¬ touched (start.place (tree.diskPath file.path)))
    (h : fs.run (tree.exportFile options file) = (.ok outcome, final)) :
    ∃ preview, start.run (tree.exportFile dry file) = (.ok preview, start) ∧
      preview.path = outcome.path ∧
        (¬ start.Hidden (tree.diskPath file.path) → preview.status = outcome.status) ∧
          (start.Hidden (tree.diskPath file.path) →
            fs.read (tree.diskPath file.path) ≠ .error .notFound →
              preview.status ≠ outcome.status) := by
  obtain ⟨-, -, current, hexisting, rfl⟩ := of_run_exportFile hkept hreal h
  by_cases hmissing : start.read (tree.diskPath file.path) = .error .notFound
  · -- The check finds nothing.  If the export finds a file, nobody has written it since.
    obtain ⟨diff, hrun⟩ := run_exportFile_dry hkept hdry (existing_eq_none.2 hmissing)
    refine ⟨_, hrun, rfl, ?_, ?_⟩
    · intro hvisible
      cases current with
      | none => rfl
      | some text =>
          have hread := existing_eq_some.1 hexisting
          exact absurd (hgrown.hidden huntouched hmissing hread) hvisible
    · intro _ hfound hstatus
      have hnone : current = none := FileStatus.ofContent_eq_created.1 hstatus.symm
      rw [hnone] at hexisting
      exact hfound (existing_eq_none.1 hexisting)
  · -- What the check finds is still there when the export comes to it.
    rw [hgrown.existing_eq huntouched hmissing] at hexisting
    obtain ⟨diff, hrun⟩ := run_exportFile_dry hkept hdry hexisting
    exact ⟨_, hrun, rfl, fun _ => rfl, fun hhidden => absurd hhidden.1 hmissing⟩

/-- None of the files is hidden. -/
def NoneHidden (tree : OutputTree) (fs : FileSystem) (files : List GeneratedFile) : Prop :=
  ∀ file ∈ files, ¬ fs.Hidden (tree.diskPath file.path)

/-- The paths of the files stay below the root. -/
def PathsValid (files : List GeneratedFile) : Prop :=
  ∀ file ∈ files, Path.outputFault? file.path = none

theorem way_root_of_read {path : String} {content : FileContent}
    (h : fs.read (tree.diskPath path) = .ok content) : fs.way tree.root ≠ .error .notFound := by
  intro hmissing
  have hway := way_of_locate (read_eq_ok.1 h).1
  rw [tree.way_diskPath, hmissing] at hway
  cases hway

/-- A check from an earlier file system beside the rest of the export.  The places that the export
comes to are untouched so far. -/
theorem run_exportFiles_preview {start : FileSystem} {dry : ExportOptions}
    {outcomes : List FileOutcome} (hdry : dry.dryRun = true) (hreal : options.dryRun = false)
    (hgrown : Grown (· ∉ tree.places start files) start fs)
    (hdistinct : (tree.places start files).Nodup)
    (h : fs.run (tree.exportFiles options files) = (.ok outcomes, final)) :
    ∃ previews, start.run (tree.exportFiles dry files) = (.ok previews, start) ∧
      Beside (tree.NoneHidden start (tree.kept files))
        (start.Rooted ∧ PathsValid files ∧ fs.way tree.root ≠ .error .notFound)
        previews outcomes := by
  induction files generalizing fs outcomes with
  | nil =>
      cases h
      exact ⟨[], rfl, .nil fun file hfile => by cases hfile⟩
  | cons file files ih =>
      obtain ⟨outcome, middle, others, hfile, hfiles, rfl⟩ := run_exportFiles_cons h
      have hrest : PathsValid (file :: files) → PathsValid files := fun hvalid other hother =>
        hvalid other (List.mem_cons_of_mem file hother)
      cases hkept : tree.ignores file.path with
      | true =>
          rw [run_exportFile_ignored hkept] at hfile
          cases hfile
          rw [places_cons_ignored hkept] at hgrown hdistinct
          rw [kept_cons_ignored hkept]
          obtain ⟨previews, hpreviews, hbeside⟩ := ih hgrown hdistinct hfiles
          refine ⟨_, run_exportFiles_of_cons (run_exportFile_ignored hkept) hpreviews, ?_⟩
          refine .cons (hbeside.imp ?_) rfl rfl
          rintro ⟨hstart, hvalid, hroot⟩
          exact ⟨hstart, hrest hvalid, hroot⟩
      | false =>
          rw [places_cons hkept] at hgrown hdistinct
          rw [kept_cons hkept]
          obtain ⟨hfresh, hothers⟩ := List.nodup_cons.1 hdistinct
          obtain ⟨hstep, hread, -⟩ := of_run_exportFile hkept hreal hfile
          rw [place_congr hgrown.directory] at hstep
          obtain ⟨preview, hpreview, hpath, hstatus, hdiffers⟩ :=
            run_exportFile_preview hkept hdry hreal hgrown
              (fun htouched => htouched List.mem_cons_self) hfile
          -- This step touches the place of this file only, and no later file stands there.
          have hnext : Grown (· ∉ tree.places start files) start middle := by
            refine (hgrown.mono fun location hlocation hmem => ?_).trans
              (hstep.mono fun location hlocation => ?_)
            · exact hlocation (List.mem_cons_of_mem _ hmem)
            · rw [hlocation]
              exact hfresh
          obtain ⟨previews, hpreviews, hbeside⟩ := ih hnext hothers hfiles
          refine ⟨_, run_exportFiles_of_cons hpreview hpreviews, ?_, ?_, ?_⟩
          · rw [List.map_cons, List.map_cons, hpath, hbeside.paths]
          · intro hvisible
            rw [List.map_cons, List.map_cons, hstatus (hvisible file List.mem_cons_self),
              hbeside.statuses fun other hother =>
                hvisible other (List.mem_cons_of_mem file hother)]
          · rintro ⟨hstart, hvalid, hroot⟩ hstatuses other hother
            obtain ⟨hhead, htail⟩ := List.cons.inj hstatuses
            rcases List.mem_cons.1 hother with rfl | hother
            · intro hhidden
              refine hdiffers hhidden ?_ hhead
              exact hhidden.revealed hgrown hstart (hvalid other List.mem_cons_self) hroot
            · exact hbeside.visible_of_statuses ⟨hstart, hrest hvalid, way_root_of_read hread⟩ htail
                other hother

/-- A check beside an export from the same file system.  The first file that is not left alone finds
the file system as it was, and once it has been written the root can be reached. -/
theorem run_exportFiles_preview_start {dry : ExportOptions} {outcomes : List FileOutcome}
    (hdry : dry.dryRun = true) (hreal : options.dryRun = false)
    (hdistinct : (tree.places fs files).Nodup)
    (h : fs.run (tree.exportFiles options files) = (.ok outcomes, final)) :
    ∃ previews, fs.run (tree.exportFiles dry files) = (.ok previews, fs) ∧
      Beside (tree.NoneHidden fs (tree.kept files).tail) (fs.Rooted ∧ PathsValid files)
        previews outcomes := by
  induction files generalizing outcomes with
  | nil =>
      cases h
      exact ⟨[], rfl, .nil fun file hfile => by cases hfile⟩
  | cons file files ih =>
      obtain ⟨outcome, middle, others, hfile, hfiles, rfl⟩ := run_exportFiles_cons h
      have hrest : PathsValid (file :: files) → PathsValid files := fun hvalid other hother =>
        hvalid other (List.mem_cons_of_mem file hother)
      cases hkept : tree.ignores file.path with
      | true =>
          rw [run_exportFile_ignored hkept] at hfile
          cases hfile
          rw [places_cons_ignored hkept] at hdistinct
          rw [kept_cons_ignored hkept]
          obtain ⟨previews, hpreviews, hbeside⟩ := ih hdistinct hfiles
          refine ⟨_, run_exportFiles_of_cons (run_exportFile_ignored hkept) hpreviews, ?_⟩
          refine .cons (hbeside.imp ?_) rfl rfl
          rintro ⟨hfs, hvalid⟩
          exact ⟨hfs, hrest hvalid⟩
      | false =>
          rw [places_cons hkept] at hdistinct
          rw [kept_cons hkept, List.tail_cons]
          obtain ⟨hfresh, hothers⟩ := List.nodup_cons.1 hdistinct
          obtain ⟨hstep, hread, current, hexisting, rfl⟩ := of_run_exportFile hkept hreal hfile
          have hnext : Grown (· ∉ tree.places fs files) fs middle := by
            refine hstep.mono fun location hlocation => ?_
            rw [hlocation]
            exact hfresh
          obtain ⟨diff, hpreview⟩ := run_exportFile_dry hkept hdry hexisting
          obtain ⟨previews, hpreviews, hbeside⟩ :=
            run_exportFiles_preview hdry hreal hnext hothers hfiles
          refine ⟨_, run_exportFiles_of_cons hpreview hpreviews, ?_⟩
          -- Both read the first file in the same file system.
          refine .cons (hbeside.imp ?_) rfl rfl
          rintro ⟨hfs, hvalid⟩
          exact ⟨hfs, hrest hvalid, way_root_of_read hread⟩

/-! ## The whole tree -/

/-- The paths of the tree stay below its root. -/
def Valid (tree : OutputTree) : Prop :=
  PathsValid tree.files

/-- The report where all files have their content already. -/
def settledReport (tree : OutputTree) (options : ExportOptions) : ExportReport :=
  ⟨tree.root, options.dryRun, tree.files.map tree.settledOutcome⟩

theorem hasChanges_settledReport (tree : OutputTree) (options : ExportOptions) :
    (tree.settledReport options).hasChanges = false := by
  rw [ExportReport.hasChanges, List.any_eq_false]
  intro outcome houtcome
  obtain ⟨file, -, rfl⟩ := List.mem_map.1 houtcome
  unfold settledOutcome
  split <;> simp [FileStatus.isChange]

/-- Behind the first file that is not left alone, no file is hidden. -/
def Visible (tree : OutputTree) (fs : FileSystem) : Prop :=
  tree.NoneHidden fs (tree.kept tree.files).tail

instance (tree : OutputTree) (fs : FileSystem) : Decidable (tree.Visible fs) :=
  inferInstanceAs (Decidable (∀ file ∈ (tree.kept tree.files).tail,
    ¬ fs.Hidden (tree.diskPath file.path)))

end OutputTree

namespace OutputDraft

/-- A draft takes only files whose paths stay below the root. -/
theorem pathsValid_addFiles {draft : OutputDraft} {files : List GeneratedFile}
    (h : OutputTree.PathsValid draft.files) :
    OutputTree.PathsValid (draft.addFiles files).files := by
  induction files generalizing draft with
  | nil => exact h
  | cons added files ih =>
      refine ih ?_
      unfold addFile
      split
      · exact h
      · rename_i hfault
        intro file hfile
        rcases List.mem_append.1 hfile with hfile | hfile
        · exact h file hfile
        · obtain rfl := List.mem_singleton.1 hfile
          exact (Option.or_eq_none_iff.1 hfault).1

theorem valid_of_build {draft : OutputDraft} {tree : OutputTree} (h : draft.build = .ok tree)
    (hfiles : OutputTree.PathsValid draft.files) : tree.Valid := by
  unfold build at h
  split at h
  · cases h
  · obtain ⟨ignore, -, h⟩ := bind_eq_ok.1 h
    obtain rfl := Except.ok.inj h
    exact hfiles

end OutputDraft

namespace Run

/-! ## Runs -/

/-- The tree of a configuration is valid. -/
theorem valid_of_buildTree {loaded : LoadedConfig} {tree : OutputTree}
    (h : buildTree loaded = .ok tree) : tree.Valid := by
  obtain ⟨files, -, h⟩ := bind_eq_ok.1 h
  refine OutputDraft.valid_of_build (mapError_eq_ok.1 h) ?_
  exact OutputDraft.pathsValid_addFiles fun file hfile => by cases hfile

theorem snd_firstFile (directory : String) (names : List String) (fs : FileSystem) :
    ((ApiConfig.firstFile directory names : StateM FileSystem (Option String)).run fs).2 = fs := by
  induction names with
  | nil => rfl
  | cons name names ih =>
      show ((if fs.isFile (Path.join directory name) then pure (some (Path.join directory name))
        else ApiConfig.firstFile directory names : StateM FileSystem (Option String)).run fs).2 = fs
      split
      · rfl
      · exact ih

theorem snd_discover (directory : String) (fs : FileSystem) :
    ((ApiConfig.discover directory : StateM FileSystem (Outcome String)).run fs).2 = fs := by
  have hfirst := snd_firstFile directory ApiConfig.defaultFiles fs
  unfold ApiConfig.discover
  rw [StateT.run_bind]
  cases hfound : (ApiConfig.firstFile directory ApiConfig.defaultFiles :
      StateM FileSystem (Option String)).run fs with
  | mk found after =>
      rw [hfound] at hfirst
      cases found with
      | some path => exact hfirst
      | none => exact hfirst

theorem snd_load (path : String) (fs : FileSystem) :
    ((ApiConfig.load path : StateM FileSystem (Outcome ApiConfig)).run fs).2 = fs := by
  unfold ApiConfig.load
  rw [StateT.run_bind]
  cases hread : (FileStore.read path : StateM FileSystem (Except FileFault String)).run fs with
  | mk found after =>
      obtain rfl : fs = after := congrArg Prod.snd hread
      cases found with
      | error fault => rfl
      | ok text => rfl

/-- Loading a configuration changes nothing. -/
theorem snd_run_loadConfig (path? : Option String) (workingDirectory : String) (fs : FileSystem) :
    (fs.run (loadConfig path? workingDirectory)).2 = fs := by
  have hload : ∀ path,
      (fs.run (building ("failed to load config " ++ path) (ApiConfig.load path) >>=
        fun config => pure (⟨path, config⟩ : LoadedConfig))).2 = fs :=
    fun path => FileSystem.snd_run_bind (snd_load path fs) fun config => rfl
  cases path? with
  | some path => exact hload path
  | none => exact FileSystem.snd_run_bind (snd_discover workingDirectory fs) hload

/-- The check of a configuration whose files all have their content succeeds. -/
theorem run_check_settled {fs : FileSystem} {tree : OutputTree} {loaded : LoadedConfig}
    {path? : Option String} {workingDirectory : String} (format : OutputFormat) (colored : Bool)
    (hload : (fs.run (loadConfig path? workingDirectory)).1 = .ok loaded)
    (hbuild : buildTree loaded = .ok tree)
    (hsettled : fs.run tree.check = (.ok (tree.settledReport { dryRun := true }), fs)) :
    fs.run (check path? workingDirectory format colored) =
      (.ok ⟨.success, printed loaded (tree.settledReport { dryRun := true }) format colored⟩,
        fs) := by
  have hloaded : fs.run (loadConfig path? workingDirectory) = (.ok loaded, fs) :=
    Prod.ext hload (snd_run_loadConfig path? workingDirectory fs)
  have htree : fs.run (ExceptT.mk (pure (buildTree loaded))) = (.ok tree, fs) := by
    rw [hbuild]
    rfl
  have hreport : fs.run (exporting ("failed to read " ++ tree.root) tree.check.run) =
      (.ok (tree.settledReport { dryRun := true }), fs) := by
    show ((fs.run tree.check).1.mapError _, (fs.run tree.check).2) = _
    rw [hsettled]
    rfl
  unfold check
  rw [FileSystem.run_bind_ok hloaded, FileSystem.run_bind_ok htree, FileSystem.run_bind_ok hreport,
    FileSystem.run_pure, tree.hasChanges_settledReport]
  rfl

end Run

namespace OutputTree

/-- A check never changes the file system.  After an export that succeeds, every file that is not
left alone has its content, and a further export or check reports nothing to do and does nothing,
so that the check of the configuration succeeds.  A check before the export succeeds as well and
lists the same paths.  It lists the same statuses exactly if no file behind the first is hidden. -/
theorem exportAll_converges (tree : OutputTree) (fs : FileSystem)
    (hdistinct : (tree.places fs tree.files).Nodup) :
    (fs.run tree.check).2 = fs ∧
    ∀ (options : ExportOptions) (report : ExportReport) (final : FileSystem),
      options.dryRun = false → fs.run (tree.exportAll options) = (.ok report, final) →
      (∃ preview : ExportReport, fs.run tree.check = (.ok preview, fs) ∧
        preview.files.map (·.path) = report.files.map (·.path) ∧
        (tree.Visible fs → preview.files.map (·.status) = report.files.map (·.status)) ∧
        (fs.Rooted ∧ tree.Valid →
          preview.files.map (·.status) = report.files.map (·.status) → tree.Visible fs)) ∧
      (∀ file ∈ tree.kept tree.files,
        final.read (tree.diskPath file.path) = .ok (.text file.content)) ∧
      (fs.Rooted → final.Rooted) ∧
      (∀ again : ExportOptions,
        final.run (tree.exportAll again) = (.ok (tree.settledReport again), final) ∧
        (tree.settledReport again).hasChanges = false) ∧
      ∀ (path? : Option String) (workingDirectory : String) (format : OutputFormat)
        (colored : Bool) (loaded : LoadedConfig),
        (final.run (Run.loadConfig path? workingDirectory)).1 = .ok loaded →
        Run.buildTree loaded = .ok tree →
        ∃ output, final.run (Run.check path? workingDirectory format colored) =
          (.ok ⟨.success, output⟩, final) := by
  refine ⟨tree.snd_run_check fs, fun options report final hreal hexport => ?_⟩
  have hfiles := run_exportAll_eq_ok hexport
  obtain ⟨hgrown, hcontents⟩ := of_run_exportFiles hreal hdistinct hfiles
  have hsettled : ∀ again : ExportOptions,
      final.run (tree.exportAll again) = (.ok (tree.settledReport again), final) := fun again =>
    run_exportAll_of_files (run_exportFiles_settled hcontents)
  refine ⟨?_, hcontents, hgrown.rooted,
    fun again => ⟨hsettled again, tree.hasChanges_settledReport again⟩, ?_⟩
  · have hdry : ({ dryRun := true } : ExportOptions).dryRun = true := rfl
    obtain ⟨previews, hpreviews, hbeside⟩ :=
      run_exportFiles_preview_start hdry hreal hdistinct hfiles
    exact ⟨_, run_exportAll_of_files hpreviews, hbeside.paths, hbeside.statuses,
      hbeside.visible_of_statuses⟩
  · intro path? workingDirectory format colored loaded hload hbuild
    exact ⟨_, Run.run_check_settled format colored hload hbuild (hsettled _)⟩

theorem exists_run_eq_ok {fs : FileSystem} {step : Step (StateM FileSystem) ExportReport}
    {statuses : List FileStatus}
    (h : (fs.run step).1.toOption.map (fun report => report.files.map (·.status)) =
      some statuses) :
    ∃ report final, fs.run step = (.ok report, final) ∧ report.files.map (·.status) = statuses := by
  cases hrun : fs.run step with
  | mk result final =>
      rw [hrun] at h
      cases result with
      | error e => cases h
      | ok report => exact ⟨report, final, rfl, Option.some.inj h⟩

/-- A tree whose root leads through a directory that need not be there. -/
def detour : OutputTree :=
  { root := "missing/../out", files := [⟨"a.ts", "new"⟩, ⟨"b.ts", "new"⟩], ignore := ⟨[]⟩ }

/-- The first file of the detour is there, with another content. -/
def detourStale : FileSystem :=
  { entries := [(["out"], .directory), (["a.ts", "out"], .file (.text "old"))] }

/-- Both files of the detour are there, with their content. -/
def detourDone : FileSystem :=
  { entries := [(["out"], .directory), (["a.ts", "out"], .file (.text "new")),
      (["b.ts", "out"], .file (.text "new"))] }

theorem exportAll_converges_detourStale :
    (detour.places detourStale detour.files).Nodup ∧ detour.Visible detourStale ∧
      ∃ report final, detourStale.run (detour.exportAll { atomic := false }) = (.ok report, final) ∧
        (∃ preview, detourStale.run detour.check = (.ok preview, detourStale) ∧
          preview.files.map (·.status) = report.files.map (·.status)) ∧
          final.read "missing/../out/a.ts" = .ok (.text "new") ∧
            final.run (detour.exportAll {}) = (.ok (detour.settledReport {}), final) := by
  have hdistinct : (detour.places detourStale detour.files).Nodup := by decide +kernel
  have hvisible : detour.Visible detourStale := by decide +kernel
  have hstatuses : (detourStale.run (detour.exportAll { atomic := false })).1.toOption.map
      (fun report => report.files.map (·.status)) = some [.created, .created] := by
    decide +kernel
  obtain ⟨report, final, hexport, -⟩ := exists_run_eq_ok hstatuses
  obtain ⟨-, hconverges⟩ := exportAll_converges detour detourStale hdistinct
  obtain ⟨⟨preview, hpreview, -, hsame, -⟩, hcontents, -, hagain, -⟩ :=
    hconverges _ report final rfl hexport
  refine ⟨hdistinct, hvisible, report, final, hexport, ⟨preview, hpreview, hsame hvisible⟩, ?_,
    (hagain {}).1⟩
  have hfirst := hcontents ⟨"a.ts", "new"⟩ (by decide +kernel)
  have hpath : detour.diskPath "a.ts" = "missing/../out/a.ts" := by decide +kernel
  rwa [hpath] at hfirst

/-- The check says that both files would be created, and the export finds the second unchanged. -/
theorem check_differs_from_export :
    ¬ ∀ (tree : OutputTree) (fs : FileSystem), (tree.places fs tree.files).Nodup →
      ∀ (options : ExportOptions) (report : ExportReport) (final : FileSystem),
        options.dryRun = false → fs.run (tree.exportAll options) = (.ok report, final) →
          ∃ preview : ExportReport, fs.run tree.check = (.ok preview, fs) ∧
            preview.files.map (·.status) = report.files.map (·.status) := by
  intro hall
  have hdistinct : (detour.places detourDone detour.files).Nodup := by decide +kernel
  have hexported : (detourDone.run (detour.exportAll {})).1.toOption.map
      (fun report => report.files.map (·.status)) = some [.created, .unchanged] := by
    decide +kernel
  have hchecked : (detourDone.run detour.check).1.toOption.map
      (fun report => report.files.map (·.status)) = some [.created, .created] := by
    decide +kernel
  obtain ⟨report, final, hexport, hreport⟩ := exists_run_eq_ok hexported
  obtain ⟨found, _, hcheck, hfound⟩ := exists_run_eq_ok hchecked
  obtain ⟨preview, hpreview, hsame⟩ := hall detour detourDone hdistinct {} report final rfl hexport
  rw [hpreview] at hcheck
  cases hcheck
  rw [hfound, hreport] at hsame
  exact absurd hsame (by decide)

end OutputTree

end ClientLoom
