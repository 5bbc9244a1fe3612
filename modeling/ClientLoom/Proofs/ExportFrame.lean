import Mathlib.Data.List.Nodup
import ClientLoom.Proofs.ExportRuns

/-!
# What an export leaves behind

An export comes as far as the first file that fails.  The files before that one have been written
one after the other, so that where several of them have the same place the last one is found there;
everything else has the content it had.  A failure itself leaves at most new directories behind.
The main statement is `OutputTree.exportAll_frame`.
-/

namespace ClientLoom

namespace FileSystem

/-! ## Contents -/

/-- The content of the file at a location, if a file stands there. -/
def contentAt (fs : FileSystem) (location : Location) : Option FileContent :=
  match fs.entry? location with
  | some (.file content) => some content
  | _ => none

@[simp] theorem contentAt_eq_some {fs : FileSystem} {location : Location} {content : FileContent} :
    fs.contentAt location = some content ↔ fs.entry? location = some (.file content) := by
  unfold contentAt
  split
  · rename_i stored hentry
    rw [hentry]
    simp
  · rename_i hentry
    constructor
    · intro h
      cases h
    · exact fun h => absurd h (hentry content)

theorem Grown.contentAt_eq {touched : Location → Prop} {before after : FileSystem}
    (h : Grown touched before after) {location : Location} (huntouched : ¬ touched location) :
    after.contentAt location = before.contentAt location := by
  refine Option.ext fun content => ?_
  rw [contentAt_eq_some, contentAt_eq_some]
  exact h.same_file huntouched content

theorem contentAt_of_read {fs : FileSystem} {path : String} {content : FileContent}
    (h : fs.read path = .ok content) : fs.contentAt (fs.place path) = some content :=
  contentAt_eq_some.2 (read_eq_ok.1 h).2.2

/-- A file that could be read can still be read, with what stands at its place by now. -/
theorem Grown.read_of_contentAt {touched : Location → Prop} {before after : FileSystem}
    (h : Grown touched before after) {path : String} {old content : FileContent}
    (hread : before.read path = .ok old)
    (hcontent : after.contentAt (before.place path) = some content) :
    after.read path = .ok content := by
  obtain ⟨hlocate, hslash, -⟩ := read_eq_ok.1 hread
  rw [← place_congr h.directory] at hlocate hcontent
  refine read_eq_ok.2 ⟨?_, hslash, contentAt_eq_some.1 hcontent⟩
  rw [← hlocate]
  refine h.locate_eq ?_
  rw [hlocate]
  exact fun habsurd => by cases habsurd

/-- What is made of the value of a step changes neither how the step ends nor what it leaves. -/
theorem run_bind_pure {ε α β : Type} (fs : FileSystem) (step : ExceptT ε (StateM FileSystem) α)
    (f : α → β) :
    fs.run (step >>= fun value => pure (f value)) = ((fs.run step).1.map f, (fs.run step).2) := by
  cases hstep : fs.run step with
  | mk outcome final =>
      cases outcome with
      | ok value =>
          rw [run_bind_ok hstep]
          rfl
      | error e =>
          rw [run_bind_error hstep]
          rfl

theorem exists_run_ok {ε α : Type} {fs : FileSystem} {step : ExceptT ε (StateM FileSystem) α}
    (h : (fs.run step).1.isOk = true) : ∃ value, fs.run step = (.ok value, (fs.run step).2) := by
  cases hresult : (fs.run step).1 with
  | ok value => exact ⟨value, Prod.ext hresult rfl⟩
  | error e =>
      rw [hresult] at h
      cases h

theorem exists_run_error {ε α : Type} {fs : FileSystem} {step : ExceptT ε (StateM FileSystem) α}
    (h : (fs.run step).1.isOk = false) : ∃ e, fs.run step = (.error e, (fs.run step).2) := by
  cases hresult : (fs.run step).1 with
  | error e => exact ⟨e, Prod.ext hresult rfl⟩
  | ok value =>
      rw [hresult] at h
      cases h

end FileSystem

namespace OutputTree

open FileSystem

variable {tree : OutputTree} {options : ExportOptions} {file : GeneratedFile}
  {files : List GeneratedFile} {fs middle final : FileSystem} {location : Location}

/-! ## The last file at a place -/

/-- The last of the files at a location, those that are left alone aside. -/
def lastAt (tree : OutputTree) (fs : FileSystem) (files : List GeneratedFile)
    (location : Location) : Option GeneratedFile :=
  ((tree.kept files).filter fun file => fs.place (tree.diskPath file.path) = location).getLast?

/-- What stands at a location when the files have been written one after the other. -/
def contentAfter (tree : OutputTree) (fs : FileSystem) (files : List GeneratedFile)
    (location : Location) : Option FileContent :=
  match tree.lastAt fs files location with
  | some file => some (.text file.content)
  | none => fs.contentAt location

theorem lastAt_congr (h : final.directory = fs.directory) :
    tree.lastAt final files location = tree.lastAt fs files location := by
  unfold lastAt
  simp only [place_congr h]

theorem lastAt_cons_ignored (hignored : tree.ignores file.path = true) :
    tree.lastAt fs (file :: files) location = tree.lastAt fs files location := by
  rw [lastAt, kept_cons_ignored hignored, lastAt]

theorem lastAt_cons (hkept : tree.ignores file.path = false) :
    tree.lastAt fs (file :: files) location =
      (tree.lastAt fs files location).or
        (if fs.place (tree.diskPath file.path) = location then some file else none) := by
  unfold lastAt
  rw [kept_cons hkept]
  by_cases hplace : fs.place (tree.diskPath file.path) = location
  · rw [List.filter_cons_of_pos (by simpa using hplace), if_pos hplace, List.getLast?_cons]
    cases ((tree.kept files).filter fun file =>
      fs.place (tree.diskPath file.path) = location).getLast? with
    | none => rfl
    | some last => rfl
  · rw [List.filter_cons_of_neg (by simpa using hplace), if_neg hplace, Option.or_none]

theorem of_lastAt_eq_some {last : GeneratedFile} (h : tree.lastAt fs files location = some last) :
    last ∈ tree.kept files ∧ fs.place (tree.diskPath last.path) = location := by
  have hmem := List.mem_filter.1 (List.mem_of_getLast? h)
  exact ⟨hmem.1, of_decide_eq_true hmem.2⟩

@[simp] theorem lastAt_eq_none_iff :
    tree.lastAt fs files location = none ↔ location ∉ tree.places fs files := by
  unfold lastAt places
  rw [List.getLast?_eq_none_iff, List.filter_eq_nil_iff, List.mem_map]
  simp

theorem contentAfter_of_not_mem (h : location ∉ tree.places fs files) :
    tree.contentAfter fs files location = fs.contentAt location := by
  unfold contentAfter
  rw [lastAt_eq_none_iff.2 h]

theorem exists_lastAt (fs : FileSystem) (h : file ∈ tree.kept files) :
    ∃ last, tree.lastAt fs files (fs.place (tree.diskPath file.path)) = some last := by
  refine Option.ne_none_iff_exists'.1 fun hnone => lastAt_eq_none_iff.1 hnone ?_
  exact List.mem_map.2 ⟨file, h, rfl⟩

/-- Where no two files have the same place, the last file at the place of a file is that file. -/
theorem lastAt_place (hdistinct : (tree.places fs files).Nodup) (h : file ∈ tree.kept files) :
    tree.lastAt fs files (fs.place (tree.diskPath file.path)) = some file := by
  obtain ⟨last, hlast⟩ := exists_lastAt fs h
  obtain ⟨hmem, hplace⟩ := of_lastAt_eq_some hlast
  rw [hlast, List.inj_on_of_nodup_map hdistinct hmem h hplace]

/-! ## The files that were exported -/

/-- The files have been written one after the other, and nothing else has changed. -/
structure Laid (tree : OutputTree) (fs : FileSystem) (files : List GeneratedFile)
    (final : FileSystem) : Prop where
  grown : Grown (· ∈ tree.places fs files) fs final
  contentAt_eq : ∀ location, final.contentAt location = tree.contentAfter fs files location
  readable : ∀ file ∈ tree.kept files, ∃ content,
    final.read (tree.diskPath file.path) = .ok content

namespace Laid

theorem nil (tree : OutputTree) (fs : FileSystem) : Laid tree fs [] fs where
  grown := .refl _ fs
  contentAt_eq := fun _ => rfl
  readable := fun file hfile => by cases hfile

/-- New directories make no difference. -/
theorem grow (h : Laid tree fs files middle) (hgrown : Grown (fun _ => False) middle final) :
    Laid tree fs files final where
  grown := h.grown.trans (hgrown.mono fun _ habsurd => habsurd.elim)
  contentAt_eq := fun location => (hgrown.contentAt_eq id).trans (h.contentAt_eq location)
  readable := by
    intro file hfile
    obtain ⟨content, hread⟩ := h.readable file hfile
    exact ⟨content, (hgrown.read_eq id (by rw [hread]; simp)).trans hread⟩

theorem cons_ignored (h : Laid tree fs files final) (hignored : tree.ignores file.path = true) :
    Laid tree fs (file :: files) final where
  grown := by
    rw [places_cons_ignored hignored]
    exact h.grown
  contentAt_eq := by
    intro location
    rw [contentAfter, lastAt_cons_ignored hignored]
    exact h.contentAt_eq location
  readable := by
    rw [kept_cons_ignored hignored]
    exact h.readable

/-- The content of the first file stands at its place, until a later one is written there. -/
theorem cons (h : Laid tree middle files final) (hkept : tree.ignores file.path = false)
    (hstep : Grown (· = fs.place (tree.diskPath file.path)) fs middle)
    (hread : middle.read (tree.diskPath file.path) = .ok (.text file.content)) :
    Laid tree fs (file :: files) final where
  grown := by
    have hrest := h.grown
    rw [places_congr hstep.directory] at hrest
    rw [places_cons hkept]
    refine (hstep.mono fun location hlocation => ?_).trans
      (hrest.mono fun location hlocation => ?_)
    · exact List.mem_cons.2 (.inl hlocation)
    · exact List.mem_cons_of_mem _ hlocation
  contentAt_eq := by
    intro location
    rw [h.contentAt_eq location, contentAfter, contentAfter, lastAt_congr hstep.directory,
      lastAt_cons hkept]
    -- A later file at the location decides; without one the first file does, if this is its place.
    cases tree.lastAt fs files location with
    | some last => rfl
    | none =>
        by_cases hplace : fs.place (tree.diskPath file.path) = location
        · have hhere := contentAt_of_read hread
          rw [place_congr hstep.directory, hplace] at hhere
          rw [if_pos hplace]
          exact hhere
        · rw [if_neg hplace]
          exact hstep.contentAt_eq (Ne.symm hplace)
  readable := by
    intro other hother
    rw [kept_cons hkept] at hother
    rcases List.mem_cons.1 hother with rfl | hother
    · -- A file stays a file when it is written again, and the way to it stays open.
      obtain ⟨-, -, hentry⟩ := read_eq_ok.1 hread
      obtain ⟨content, hafter⟩ := h.grown.keeps_file hentry
      exact ⟨content, h.grown.read_of_contentAt hread (contentAt_eq_some.2 hafter)⟩
    · exact h.readable other hother

/-- A file that was exported is found with the content of the last one at its place. -/
theorem read_eq (h : Laid tree fs files final) (hfile : file ∈ tree.kept files) :
    ∃ last, tree.lastAt fs files (fs.place (tree.diskPath file.path)) = some last ∧
      final.read (tree.diskPath file.path) = .ok (.text last.content) := by
  obtain ⟨last, hlast⟩ := exists_lastAt fs hfile
  obtain ⟨content, hread⟩ := h.readable file hfile
  have hcontent := contentAt_of_read hread
  rw [place_congr h.grown.directory, h.contentAt_eq, contentAfter, hlast] at hcontent
  rw [hread, ← Option.some.inj hcontent]
  exact ⟨last, hlast, rfl⟩

end Laid

theorem laid_of_run_exportFiles {outcomes : List FileOutcome} (hreal : options.dryRun = false)
    (h : fs.run (tree.exportFiles options files) = (.ok outcomes, final)) :
    Laid tree fs files final := by
  induction files generalizing fs outcomes with
  | nil =>
      cases h
      exact .nil tree _
  | cons file files ih =>
      obtain ⟨outcome, middle, others, hfile, hfiles, -⟩ := run_exportFiles_cons h
      cases hkept : tree.ignores file.path with
      | true =>
          rw [run_exportFile_ignored hkept] at hfile
          cases hfile
          exact (ih hfiles).cons_ignored hkept
      | false =>
          obtain ⟨hstep, hread, -⟩ := of_run_exportFile hkept hreal hfile
          exact (ih hfiles).cons hkept hstep hread

/-! ## Failures -/

theorem commit_eq_error {change : FileSystem → Except FileFault FileSystem} {fault : FileFault}
    (h : commit change fs = (.error fault, final)) : final = fs := by
  unfold commit at h
  split at h
  · cases h
  · exact (Prod.mk.inj h).2.symm

theorem run_access_eq_error {α : Type} {path : String} {e : OutputError}
    {action : StateM FileSystem (Except FileFault α)}
    (h : fs.run (access path action) = (.error e, final)) :
    ∃ fault, action fs = (.error fault, final) := by
  rw [run_access] at h
  obtain ⟨houtcome, hfinal⟩ := Prod.mk.inj h
  cases haction : (action fs).1 with
  | ok value =>
      rw [haction] at houtcome
      cases houtcome
  | error fault => exact ⟨fault, Prod.ext haction hfinal⟩

/-- A write that fails may have made directories, and no more than that. -/
theorem grown_writeFile_failed {path text : String} {e : OutputError}
    (h : fs.run (writeFile true path text) = (.error e, final)) :
    Grown (fun _ => False) fs final := by
  let parent := (Path.parent? path).getD "."
  have hmade := grown_ensureWithin (parent.length + 1) fs parent
  cases hmake : fs.run (access parent (FileStore.makeDirectories parent)) with
  | mk made middle =>
      obtain rfl : (ensureWithin (parent.length + 1) fs parent).2 = middle :=
        congrArg Prod.snd hmake
      unfold writeFile at h
      cases made with
      | error fault =>
          rw [run_bind_error hmake] at h
          cases h
          exact hmade
      | ok _ =>
          -- A replacement that fails is not committed, so only the directories are left.
          rw [run_bind_ok hmake] at h
          obtain ⟨fault, hreplace⟩ := run_access_eq_error h
          rw [commit_eq_error hreplace]
          exact hmade

/-- The export of a file that fails writes no file, whether the file could not be read, its
directories not made or its content not put in place. -/
theorem grown_exportFile_failed {e : OutputError} (hatomic : options.atomic = true)
    (h : fs.run (tree.exportFile options file) = (.error e, final)) :
    Grown (fun _ => False) fs final := by
  cases hkept : tree.ignores file.path with
  | true =>
      rw [run_exportFile_ignored hkept] at h
      cases h
  | false =>
      cases hexisting : fs.existing (tree.diskPath file.path) with
      | error fault =>
          rw [run_exportFile_error hkept hexisting] at h
          cases h
          exact .refl _ fs
      | ok current =>
          cases hdry : options.dryRun with
          | true =>
              obtain ⟨diff, hrun⟩ := run_exportFile_dry hkept hdry hexisting
              rw [hrun] at h
              cases h
          | false =>
              by_cases hchange : (FileStatus.ofContent current file.content).isChange = true
              · rw [run_exportFile_write hkept hdry hexisting hchange, hatomic] at h
                cases hwrite : fs.run (writeFile true (tree.diskPath file.path) file.content) with
                | mk written after =>
                    cases written with
                    | ok _ =>
                        rw [run_bind_ok hwrite] at h
                        cases h
                    | error fault =>
                        rw [run_bind_error hwrite] at h
                        cases h
                        exact grown_writeFile_failed hwrite
              · obtain rfl := FileStatus.isChange_ofContent.1 (Bool.eq_false_iff.2 hchange)
                rw [run_exportFile_unchanged hkept hexisting] at h
                cases h

/-! ## How far an export comes -/

/-- An export has come as far as the files `done`: either these are all, or the first file of the
rest has failed. -/
inductive Reached (tree : OutputTree) (options : ExportOptions) (fs : FileSystem) :
    (done rest : List GeneratedFile) → Except OutputError (List FileOutcome) → FileSystem → Prop
  | all {files : List GeneratedFile} {outcomes : List FileOutcome} {final : FileSystem}
      (hfiles : fs.run (tree.exportFiles options files) = (.ok outcomes, final)) :
      Reached tree options fs files [] (.ok outcomes) final
  | upTo {front back : List GeneratedFile} {file : GeneratedFile} {outcomes : List FileOutcome}
      {middle final : FileSystem} {e : OutputError}
      (hfront : fs.run (tree.exportFiles options front) = (.ok outcomes, middle))
      (hfile : middle.run (tree.exportFile options file) = (.error e, final)) :
      Reached tree options fs front (file :: back) (.error e) final

theorem Reached.cons {done rest : List GeneratedFile}
    {result : Except OutputError (List FileOutcome)} {outcome : FileOutcome}
    (h : Reached tree options middle done rest result final)
    (hfile : fs.run (tree.exportFile options file) = (.ok outcome, middle)) :
    Reached tree options fs (file :: done) rest (result.map (outcome :: ·)) final := by
  cases h with
  | all hfiles => exact .all (run_exportFiles_of_cons hfile hfiles)
  | upTo hfront hfailed => exact .upTo (run_exportFiles_of_cons hfile hfront) hfailed

theorem run_exportFiles_cons_ok {outcome : FileOutcome}
    (hfile : fs.run (tree.exportFile options file) = (.ok outcome, middle)) :
    fs.run (tree.exportFiles options (file :: files)) =
      ((middle.run (tree.exportFiles options files)).1.map (outcome :: ·),
        (middle.run (tree.exportFiles options files)).2) :=
  (run_bind_ok hfile).trans (run_bind_pure middle _ _)

theorem exists_reached (tree : OutputTree) (options : ExportOptions) (fs : FileSystem)
    (files : List GeneratedFile) :
    ∃ done rest, files = done ++ rest ∧
      Reached tree options fs done rest (fs.run (tree.exportFiles options files)).1
        (fs.run (tree.exportFiles options files)).2 := by
  induction files generalizing fs with
  | nil => exact ⟨[], [], rfl, .all rfl⟩
  | cons file files ih =>
      cases hfile : fs.run (tree.exportFile options file) with
      | mk result middle =>
          cases result with
          | error e =>
              have hrun : fs.run (tree.exportFiles options (file :: files)) = (.error e, middle) :=
                run_bind_error hfile
              rw [hrun]
              exact ⟨[], file :: files, rfl, .upTo (run_pure []) hfile⟩
          | ok outcome =>
              -- The rest is exported from the file system that the first file leaves.
              obtain ⟨done, rest, hfiles, hreached⟩ := ih middle
              rw [run_exportFiles_cons_ok hfile]
              exact ⟨file :: done, rest, congrArg (file :: ·) hfiles, hreached.cons hfile⟩

/-- The files behind one that fails make no difference. -/
theorem run_exportFiles_failed {front : List GeneratedFile} {outcomes : List FileOutcome}
    {e : OutputError} (hfront : fs.run (tree.exportFiles options front) = (.ok outcomes, middle))
    (hfile : middle.run (tree.exportFile options file) = (.error e, final))
    (back : List GeneratedFile) :
    fs.run (tree.exportFiles options (front ++ file :: back)) = (.error e, final) := by
  induction front generalizing fs outcomes with
  | nil =>
      cases hfront
      exact run_bind_error hfile
  | cons first front ih =>
      obtain ⟨outcome, between, others, hfirst, hothers, -⟩ := run_exportFiles_cons hfront
      rw [List.cons_append, run_exportFiles_cons_ok hfirst, ih hothers]
      rfl

namespace Reached

variable {done rest more : List GeneratedFile} {result : Except OutputError (List FileOutcome)}

theorem exists_run_done (h : Reached tree options fs done rest result final) :
    ∃ outcomes middle, fs.run (tree.exportFiles options done) = (.ok outcomes, middle) := by
  cases h with
  | all hfiles => exact ⟨_, _, hfiles⟩
  | upTo hfront hfile => exact ⟨_, _, hfront⟩

/-- An export that gets through some of the files behind `done` has not stopped there. -/
theorem eq_nil_of_run {outcomes : List FileOutcome}
    (h : Reached tree options fs done (more ++ rest) result final)
    (hmore : fs.run (tree.exportFiles options (done ++ more)) = (.ok outcomes, middle)) :
    more = [] := by
  cases more with
  | nil => rfl
  | cons file more =>
      cases h with
      | upTo hfront hfile =>
          rw [run_exportFiles_failed hfront hfile] at hmore
          cases hmore

/-- How far an export comes is determined by the files and by where it starts. -/
theorem done_eq {done' rest' : List GeneratedFile}
    {result' : Except OutputError (List FileOutcome)} {final' : FileSystem}
    (h : Reached tree options fs done rest result final)
    (h' : Reached tree options fs done' rest' result' final')
    (hfiles : done ++ rest = done' ++ rest') : done = done' := by
  obtain ⟨outcomes, middle, hdone⟩ := h.exists_run_done
  obtain ⟨outcomes', middle', hdone'⟩ := h'.exists_run_done
  -- The one that comes further gets through the file at which the other one stops.
  rcases List.append_eq_append_iff.1 hfiles with ⟨more, rfl, rfl⟩ | ⟨more, rfl, rfl⟩
  · rw [h.eq_nil_of_run hdone', List.append_nil]
  · rw [h'.eq_nil_of_run hdone, List.append_nil]

theorem laid (h : Reached tree options fs done rest result final) (hatomic : options.atomic = true)
    (hreal : options.dryRun = false) : Laid tree fs done final := by
  cases h with
  | all hfiles => exact laid_of_run_exportFiles hreal hfiles
  | upTo hfront hfile =>
      -- The file that fails leaves at most directories behind.
      exact (laid_of_run_exportFiles hreal hfront).grow (grown_exportFile_failed hatomic hfile)

end Reached

/-! ## The whole tree -/

theorem run_exportAll (tree : OutputTree) (options : ExportOptions) (fs : FileSystem) :
    fs.run (tree.exportAll options) =
      ((fs.run (tree.exportFiles options tree.files)).1.map
          (ExportReport.mk tree.root options.dryRun),
        (fs.run (tree.exportFiles options tree.files)).2) :=
  run_bind_pure fs _ _

@[simp] theorem kept_append (tree : OutputTree) (front back : List GeneratedFile) :
    tree.kept (front ++ back) = tree.kept front ++ tree.kept back :=
  List.filter_append front back

@[simp] theorem places_append (tree : OutputTree) (fs : FileSystem)
    (front back : List GeneratedFile) :
    tree.places fs (front ++ back) = tree.places fs front ++ tree.places fs back := by
  rw [places, kept_append, List.map_append, places, places]

/-- With distinct places, every file that was exported has its content, and no other was touched. -/
theorem Laid.of_nodup {done rest : List GeneratedFile} (h : Laid tree fs done final)
    (hdistinct : (tree.places fs (done ++ rest)).Nodup) :
    (∀ file ∈ tree.kept done,
      final.read (tree.diskPath file.path) = .ok (.text file.content)) ∧
    ∀ file ∈ tree.kept rest,
      final.contentAt (fs.place (tree.diskPath file.path)) =
        fs.contentAt (fs.place (tree.diskPath file.path)) := by
  rw [places_append] at hdistinct
  obtain ⟨hdone, -, hapart⟩ := List.nodup_append.1 hdistinct
  refine ⟨fun file hfile => ?_, fun file hfile => ?_⟩
  · obtain ⟨last, hlast, hread⟩ := h.read_eq hfile
    rw [lastAt_place hdone hfile] at hlast
    rw [hread, Option.some.inj hlast]
  · rw [h.contentAt_eq]
    refine contentAfter_of_not_mem fun hmem => hapart _ hmem _ ?_ rfl
    exact List.mem_map.2 ⟨file, hfile, rfl⟩

/-- A dry run changes nothing.  An export changes contents only at the places of files that are not
left alone, and there the old content is found or that of a file with this place.  It comes as far
as the first file that fails, and it leaves exactly what the files before that one leave if they
are written one after the other: where two of them have the same place, the last one is found.
With distinct places, all files before the failure have their content and none behind it is
touched. -/
theorem exportAll_frame (tree : OutputTree) (fs : FileSystem) :
    (fs.run (tree.exportAll { atomic := true, dryRun := true })).2 = fs ∧
    ∀ (result : Except OutputError ExportReport) (final : FileSystem),
      fs.run (tree.exportAll { atomic := true }) = (result, final) →
      (∀ location, location ∉ tree.places fs tree.files →
        final.contentAt location = fs.contentAt location) ∧
      (∀ location ∈ tree.places fs tree.files,
        final.contentAt location = fs.contentAt location ∨
          ∃ file ∈ tree.kept tree.files, fs.place (tree.diskPath file.path) = location ∧
            final.contentAt location = some (.text file.content)) ∧
      ∃ done rest outcomes, tree.files = done ++ rest ∧
        Reached tree { atomic := true } fs done rest outcomes final ∧
        result = outcomes.map (ExportReport.mk tree.root false) ∧
        (∀ location, final.contentAt location = tree.contentAfter fs done location) ∧
        (∀ file ∈ tree.kept done, ∃ last,
          tree.lastAt fs done (fs.place (tree.diskPath file.path)) = some last ∧
            final.read (tree.diskPath file.path) = .ok (.text last.content)) ∧
        ((tree.places fs tree.files).Nodup →
          (∀ file ∈ tree.kept done,
            final.read (tree.diskPath file.path) = .ok (.text file.content)) ∧
          ∀ file ∈ tree.kept rest,
            final.contentAt (fs.place (tree.diskPath file.path)) =
              fs.contentAt (fs.place (tree.diskPath file.path))) := by
  refine ⟨?_, fun result final hexport => ?_⟩
  · rw [run_exportAll]
    exact snd_run_exportFiles_dry tree tree.files fs rfl
  rw [run_exportAll] at hexport
  obtain ⟨rfl, rfl⟩ := Prod.mk.inj hexport
  obtain ⟨done, rest, hfiles, hreached⟩ := exists_reached tree { atomic := true } fs tree.files
  have hlaid := hreached.laid rfl rfl
  refine ⟨fun location hlocation => ?_, fun location _ => ?_, done, rest, _, hfiles, hreached, rfl,
    hlaid.contentAt_eq, fun file hfile => hlaid.read_eq hfile, fun hdistinct => ?_⟩
  · rw [hlaid.contentAt_eq]
    refine contentAfter_of_not_mem fun hmem => hlocation ?_
    rw [hfiles, places_append]
    exact List.mem_append_left _ hmem
  · rw [hlaid.contentAt_eq, contentAfter]
    cases hlast : tree.lastAt fs done location with
    | none => exact .inl rfl
    | some last =>
        obtain ⟨hmem, hplace⟩ := of_lastAt_eq_some hlast
        refine .inr ⟨last, ?_, hplace, rfl⟩
        rw [hfiles, kept_append]
        exact List.mem_append_left _ hmem
  · rw [hfiles] at hdistinct
    exact hlaid.of_nodup hdistinct

/-- Three files of which the second cannot be written if a directory stands in its place. -/
def halted : OutputTree :=
  { root := "out", files := [⟨"a.ts", "1"⟩, ⟨"dir.ts", "2"⟩, ⟨"b.ts", "3"⟩], ignore := ⟨[]⟩ }

/-- A directory stands in the place of the second file, and the others have another content. -/
def haltedBlocked : FileSystem :=
  { entries := [(["out"], .directory), (["a.ts", "out"], .file (.text "old")),
      (["dir.ts", "out"], .directory), (["b.ts", "out"], .file (.text "old"))] }

/-- What the first file leaves. -/
def haltedWritten : FileSystem :=
  (haltedBlocked.run (halted.exportFiles { atomic := true } [⟨"a.ts", "1"⟩])).2

theorem exportAll_frame_halted :
    (halted.places haltedBlocked halted.files).Nodup ∧
      ∃ e final, haltedBlocked.run (halted.exportAll { atomic := true }) = (.error e, final) ∧
        final.read "out/a.ts" = .ok (.text "1") ∧
        final.contentAt ["b.ts", "out"] = some (.text "old") := by
  have hdistinct : (halted.places haltedBlocked halted.files).Nodup := by decide +kernel
  obtain ⟨e, final, hrun⟩ : ∃ e final,
      haltedBlocked.run (halted.exportAll { atomic := true }) = (.error e, final) :=
    (exists_run_error (by decide +kernel)).imp fun e hrun => ⟨_, hrun⟩
  obtain ⟨-, hframe⟩ := exportAll_frame halted haltedBlocked
  obtain ⟨-, -, done, rest, _, hfiles, hreached, -, -, -, hplaced⟩ := hframe _ final hrun
  obtain ⟨outcomes, hfront⟩ : ∃ outcomes,
      haltedBlocked.run (halted.exportFiles { atomic := true } [⟨"a.ts", "1"⟩]) =
        (.ok outcomes, haltedWritten) :=
    exists_run_ok (by decide +kernel)
  obtain ⟨fault, left, hsecond⟩ : ∃ fault left,
      haltedWritten.run (halted.exportFile { atomic := true } ⟨"dir.ts", "2"⟩) =
        (.error fault, left) :=
    (exists_run_error (by decide +kernel)).imp fun fault hsecond => ⟨_, hsecond⟩
  -- The export comes as far as the first file, so this one is written and the last one is not.
  have hhalt : Reached halted { atomic := true } haltedBlocked [⟨"a.ts", "1"⟩]
      [⟨"dir.ts", "2"⟩, ⟨"b.ts", "3"⟩] (.error fault) left := .upTo hfront hsecond
  obtain rfl := hreached.done_eq hhalt hfiles.symm
  obtain rfl : [⟨"dir.ts", "2"⟩, ⟨"b.ts", "3"⟩] = rest := (List.cons.inj hfiles).2
  obtain ⟨hdone, hrest⟩ := hplaced hdistinct
  have hfirst := hdone ⟨"a.ts", "1"⟩ (by decide +kernel)
  have hlast := hrest ⟨"b.ts", "3"⟩ (by decide +kernel)
  have hpath : halted.diskPath "a.ts" = "out/a.ts" := by decide +kernel
  have hplace : haltedBlocked.place (halted.diskPath "b.ts") = ["b.ts", "out"] := by decide +kernel
  have hold : haltedBlocked.contentAt ["b.ts", "out"] = some (.text "old") := by decide +kernel
  rw [hpath] at hfirst
  rw [hplace, hold] at hlast
  exact ⟨hdistinct, e, final, hrun, hfirst, hlast⟩

/-- Two files at one place, and one that cannot be written if a directory stands in its place. -/
def doubled : OutputTree :=
  { root := "out", files := [⟨"x/a.ts", "1"⟩, ⟨"x//a.ts", "2"⟩, ⟨"dir.ts", "z"⟩], ignore := ⟨[]⟩ }

/-- The files in front of the one that fails. -/
def doubledFront : List GeneratedFile :=
  [⟨"x/a.ts", "1"⟩, ⟨"x//a.ts", "2"⟩]

/-- The file that fails. -/
def doubledLast : GeneratedFile :=
  ⟨"dir.ts", "z"⟩

/-- A directory stands in the place of the last file. -/
def doubledBlocked : FileSystem :=
  { entries := [(["out"], .directory), (["dir.ts", "out"], .directory)] }

/-- What the files in front leave. -/
def doubledWritten : FileSystem :=
  (doubledBlocked.run (doubled.exportFiles { atomic := true } doubledFront)).2

/-- What the failure of the last file leaves. -/
def doubledFailed : FileSystem :=
  (doubledWritten.run (doubled.exportFile { atomic := true } doubledLast)).2

theorem build_doubled :
    (OutputDraft.addFiles { root := "out" } doubled.files).build = .ok doubled := by
  rfl

/-- The export of a tree fails at the third file, and the first one has lost its content to the
second. -/
theorem earlier_file_overwritten :
    ¬ ∀ (root : String) (files : List GeneratedFile) (tree : OutputTree) (fs : FileSystem),
      (OutputDraft.addFiles { root } files).build = .ok tree →
      ∀ (front back : List GeneratedFile) (file : GeneratedFile) (e : OutputError)
        (final : FileSystem), tree.files = front ++ file :: back →
        Reached tree { atomic := true } fs front (file :: back) (.error e) final →
          ∀ earlier ∈ tree.kept front,
            fs.read (tree.diskPath earlier.path) ≠ .ok (.text earlier.content) →
              final.read (tree.diskPath earlier.path) = .ok (.text earlier.content) := by
  intro hall
  -- The first two files are written to one place, and then the last one fails.
  obtain ⟨outcomes, hfront⟩ : ∃ outcomes,
      doubledBlocked.run (doubled.exportFiles { atomic := true } doubledFront) =
        (.ok outcomes, doubledWritten) :=
    exists_run_ok (by decide +kernel)
  obtain ⟨e, hlast⟩ : ∃ e,
      doubledWritten.run (doubled.exportFile { atomic := true } doubledLast) =
        (.error e, doubledFailed) :=
    exists_run_error (by decide +kernel)
  have hnew : doubledBlocked.read (doubled.diskPath "x/a.ts") ≠ .ok (.text "1") := by
    intro hread
    have hmissing : (doubledBlocked.read (doubled.diskPath "x/a.ts")).toOption = none := by
      decide +kernel
    rw [hread] at hmissing
    cases hmissing
  have hsame := hall "out" doubled.files doubled doubledBlocked build_doubled doubledFront []
    doubledLast e doubledFailed rfl (.upTo hfront hlast) ⟨"x/a.ts", "1"⟩ (by decide +kernel) hnew
  have hfound : (doubledFailed.read (doubled.diskPath "x/a.ts")).toOption = some (.text "2") := by
    decide +kernel
  rw [hsame] at hfound
  exact absurd hfound (by decide)

end OutputTree

end ClientLoom
