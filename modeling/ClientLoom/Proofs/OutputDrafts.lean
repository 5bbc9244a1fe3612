import ClientLoom.Proofs.DistinctPaths
import ClientLoom.Proofs.PathNames

/-!
# Drafts of output trees

Calls on a draft add files and patterns in any order.  The tree is built if the paths of the files
are sound, each in itself and beside those in front, and every pattern is a glob; then it holds the
files in their order, all below the root.  Otherwise the first path that is refused is reported,
and only after the paths the first bad pattern: the main statement is `OutputDraft.build_after`.

Paths are compared by their texts, so two files may have the same names on disk and different
paths.  `OutputDraft.files_meet_iff` says when they do.
-/

namespace ClientLoom

/-- A call on a draft: a file that is added, or patterns of files that are left alone. -/
inductive DraftCall
  | add (file : GeneratedFile)
  | ignore (patterns : List String)

namespace DraftCall

/-- The file that a call adds. -/
def file? : DraftCall → Option GeneratedFile
  | .add file => some file
  | .ignore _ => none

/-- The patterns that a call adds. -/
def patterns : DraftCall → List String
  | .add _ => []
  | .ignore patterns => patterns

/-- The files that calls add, in order. -/
def files (calls : List DraftCall) : List GeneratedFile :=
  calls.filterMap file?

/-- The patterns that calls add, in order. -/
def allPatterns (calls : List DraftCall) : List String :=
  calls.flatMap patterns

end DraftCall

namespace OutputDraft

/-! ## Calls -/

/-- The draft after a call. -/
def call (draft : OutputDraft) : DraftCall → OutputDraft
  | .add file => draft.addFile file
  | .ignore patterns => draft.addPatterns patterns

/-- The draft under a root after calls, one after the other. -/
def after (root : String) (calls : List DraftCall) : OutputDraft :=
  calls.foldl call { root }

theorem addFile_addPatterns (draft : OutputDraft) (file : GeneratedFile) (patterns : List String) :
    (draft.addPatterns patterns).addFile file = (draft.addFile file).addPatterns patterns := by
  have hsame : (draft.addPatterns patterns).fault? file.path = draft.fault? file.path := rfl
  rw [addFile, addFile, hsame]
  cases draft.fault? file.path with
  | some fault => rfl
  | none => rfl

theorem addFiles_addPatterns (draft : OutputDraft) (files : List GeneratedFile)
    (patterns : List String) :
    (draft.addPatterns patterns).addFiles files = (draft.addFiles files).addPatterns patterns := by
  induction files generalizing draft with
  | nil => rfl
  | cons file files ih =>
      have hfirst := draft.addFile_addPatterns file patterns
      calc
        (draft.addPatterns patterns).addFiles (file :: files) =
            ((draft.addPatterns patterns).addFile file).addFiles files := rfl
        _ = ((draft.addFile file).addPatterns patterns).addFiles files := by rw [hfirst]
        _ = (draft.addFiles (file :: files)).addPatterns patterns := ih (draft.addFile file)

theorem addPatterns_addPatterns (draft : OutputDraft) (patterns more : List String) :
    (draft.addPatterns patterns).addPatterns more = draft.addPatterns (patterns ++ more) := by
  simp [addPatterns]

/-- The order of files among files and of patterns among patterns is all that counts. -/
theorem foldl_call (draft : OutputDraft) (calls : List DraftCall) :
    calls.foldl call draft =
      (draft.addFiles (DraftCall.files calls)).addPatterns (DraftCall.allPatterns calls) := by
  induction calls generalizing draft with
  | nil => simp [DraftCall.files, DraftCall.allPatterns, addFiles, addPatterns]
  | cons first calls ih =>
      rw [List.foldl_cons, ih]
      cases first with
      | add file => rfl
      | ignore patterns =>
          have hpatterns : DraftCall.allPatterns (.ignore patterns :: calls) =
              patterns ++ DraftCall.allPatterns calls := rfl
          rw [call, addFiles_addPatterns, addPatterns_addPatterns, hpatterns]
          rfl

/-! ## Sound files -/

/-- The paths of the files are paths of the output, and none comes twice. -/
structure Sound (files : List GeneratedFile) : Prop where
  valid : ∀ file ∈ files, Path.outputFault? file.path = none
  distinct : (files.map GeneratedFile.path).Nodup

/-- A path is refused behind earlier ones: it is no path of the output, or it repeats one. -/
inductive Refused (earlier : List String) (path : String) : PathFault → Prop
  | unsound {fault : PathFault} (h : Path.outputFault? path = some fault) :
      Refused earlier path fault
  | repeated (h : Path.outputFault? path = none) (hmem : path ∈ earlier) :
      Refused earlier path .repeated

theorem Sound.snoc {files : List GeneratedFile} {file : GeneratedFile} (h : Sound files)
    (hvalid : Path.outputFault? file.path = none)
    (hnew : file.path ∉ files.map GeneratedFile.path) : Sound (files ++ [file]) := by
  refine ⟨fun other hother => ?_, ?_⟩
  · rcases List.mem_append.1 hother with hother | hother
    · exact h.valid other hother
    · rw [List.mem_singleton.1 hother]
      exact hvalid
  · rw [List.map_append, List.map_singleton, ← List.concat_eq_append]
    exact h.distinct.concat hnew

/-- The first file that is refused behind those in front of it gives this error. -/
def RefusedFirst (files : List GeneratedFile) (e : OutputError) : Prop :=
  ∃ front file back fault, files = front ++ file :: back ∧ Sound front ∧
    Refused (front.map GeneratedFile.path) file.path fault ∧ e = .invalidPath file.path fault

theorem RefusedFirst.not_sound {files : List GeneratedFile} {e : OutputError}
    (h : RefusedFirst files e) : ¬ Sound files := by
  obtain ⟨front, file, back, fault, rfl, -, hrefused, -⟩ := h
  intro hsound
  cases hrefused with
  | unsound hfault =>
      have hvalid := hsound.valid file (by simp)
      rw [hfault] at hvalid
      cases hvalid
  | repeated _ hmem =>
      have hdistinct := hsound.distinct
      rw [List.map_append, List.map_cons] at hdistinct
      exact (List.nodup_append.1 hdistinct).2.2 _ hmem _ List.mem_cons_self rfl

/-! ## Adding files -/

variable {draft : OutputDraft} {files : List GeneratedFile}

/-- A draft takes a file, or records why it is refused. -/
theorem addFile_taken_or_refused (hsound : Sound draft.files) (file : GeneratedFile) :
    (Sound (draft.files ++ [file]) ∧
      draft.addFile file = { draft with files := draft.files ++ [file] }) ∨
    ∃ fault, Refused (draft.files.map GeneratedFile.path) file.path fault ∧
      draft.addFile file =
        { draft with faults := draft.faults ++ [.invalidPath file.path fault] } := by
  rcases draft.addFile_cases file with
    ⟨fault, hfault, -, hadd⟩ | ⟨hfault, hmem, hadd⟩ | ⟨hfault, hmem, hadd⟩
  · exact .inr ⟨fault, .unsound hfault, hadd⟩
  · exact .inr ⟨.repeated, .repeated hfault hmem, hadd⟩
  · exact .inl ⟨hsound.snoc hfault hmem, hadd⟩

/-- Faults that a draft has are kept, in front of those of more files. -/
theorem faults_prefix_addFiles (draft : OutputDraft) (files : List GeneratedFile) :
    draft.faults <+: (draft.addFiles files).faults := by
  induction files generalizing draft with
  | nil => exact List.prefix_rfl
  | cons file files ih =>
      have hfirst : draft.faults <+: (draft.addFile file).faults := by
        unfold addFile
        split
        · exact List.prefix_append _ _
        · exact List.prefix_rfl
      exact hfirst.trans (ih (draft.addFile file))

/-- A draft without faults takes all of some files, or its first fault is that of the first one
that it refuses. -/
theorem addFiles_taken_or_refused (hsound : Sound draft.files) (hfaults : draft.faults = [])
    (files : List GeneratedFile) :
    (Sound (draft.files ++ files) ∧
      draft.addFiles files = { draft with files := draft.files ++ files }) ∨
    ∃ front file back fault, files = front ++ file :: back ∧ Sound (draft.files ++ front) ∧
      Refused ((draft.files ++ front).map GeneratedFile.path) file.path fault ∧
      (draft.addFiles files).faults.head? = some (.invalidPath file.path fault) := by
  induction files generalizing draft with
  | nil => exact .inl ⟨by simpa using hsound, by simp [addFiles]⟩
  | cons file files ih =>
      rcases addFile_taken_or_refused hsound file with ⟨htaken, hadd⟩ | ⟨fault, hrefused, hadd⟩
      · -- The rest is added to a draft with one more file and still without faults.
        have hfiles : (draft.addFile file).files = draft.files ++ [file] := by rw [hadd]
        have hnext : Sound (draft.addFile file).files := by
          rw [hfiles]
          exact htaken
        have hnone : (draft.addFile file).faults = [] := by rw [hadd, hfaults]
        have hrest := ih hnext hnone
        simp only [hfiles, List.append_assoc, List.singleton_append] at hrest
        rcases hrest with
          ⟨hall, hrest⟩ | ⟨front, next, back, fault, hsplit, hfront, hrefused, hhead⟩
        · refine .inl ⟨hall, ?_⟩
          calc
            draft.addFiles (file :: files) = (draft.addFile file).addFiles files := rfl
            _ = { draft.addFile file with files := draft.files ++ file :: files } := hrest
            _ = { draft with files := draft.files ++ file :: files } := by rw [hadd]
        · exact .inr ⟨file :: front, next, back, fault, by rw [hsplit, List.cons_append], hfront,
            hrefused, hhead⟩
      · -- The fault stays the first one, whatever the rest adds behind it.
        refine .inr ⟨[], file, files, fault, rfl, by simpa using hsound, by simpa using hrefused, ?_⟩
        obtain ⟨more, hmore⟩ := (draft.addFile file).faults_prefix_addFiles files
        have hfirst : (draft.addFile file).faults = [.invalidPath file.path fault] := by
          rw [hadd, hfaults, List.nil_append]
        have hall : (draft.addFiles (file :: files)).faults =
            .invalidPath file.path fault :: more := by
          calc
            (draft.addFiles (file :: files)).faults =
                ((draft.addFile file).addFiles files).faults := rfl
            _ = (draft.addFile file).faults ++ more := hmore.symm
            _ = .invalidPath file.path fault :: more := by rw [hfirst, List.singleton_append]
        rw [hall, List.head?_cons]

/-! ## Building -/

/-- What comes of calls: a tree, the error of the first bad pattern, or that of the first path that
is refused. -/
theorem build_after_cases (root : String) (calls : List DraftCall) :
    (Sound (DraftCall.files calls) ∧ ∃ globs,
      (DraftCall.allPatterns calls).mapM IgnoreRules.glob = .ok globs ∧
        (after root calls).build = .ok ⟨root, DraftCall.files calls, ⟨globs⟩⟩) ∨
    (Sound (DraftCall.files calls) ∧ ∃ e,
      FailsFirst IgnoreRules.glob (DraftCall.allPatterns calls) e ∧
        (after root calls).build = .error e) ∨
    ∃ e, RefusedFirst (DraftCall.files calls) e ∧ (after root calls).build = .error e := by
  have hempty : Sound ({ root } : OutputDraft).files := ⟨by simp, by simp⟩
  have hafter := foldl_call { root } calls
  rcases addFiles_taken_or_refused hempty rfl (DraftCall.files calls) with
    ⟨hsound, hadd⟩ | ⟨front, file, back, fault, hsplit, hfront, hrefused, hhead⟩
  · -- Nothing is refused, so the patterns decide.
    rw [List.nil_append] at hsound
    have hbuild : (after root calls).build =
        IgnoreRules.mk <$> (DraftCall.allPatterns calls).mapM IgnoreRules.glob >>= fun rules =>
          .ok ⟨root, DraftCall.files calls, rules⟩ := by
      rw [after, hafter, hadd]
      rfl
    cases hglobs : (DraftCall.allPatterns calls).mapM IgnoreRules.glob with
    | ok globs =>
        rw [hglobs] at hbuild
        exact .inl ⟨hsound, globs, rfl, hbuild⟩
    | error e =>
        rw [hglobs] at hbuild
        exact .inr (.inl ⟨hsound, e, failsFirst_of_mapM hglobs, hbuild⟩)
  · refine .inr (.inr ⟨_, ⟨front, file, back, fault, hsplit, hfront, hrefused, rfl⟩, ?_⟩)
    obtain ⟨more, hfaults⟩ := List.head?_eq_some_iff.1 hhead
    have hall : (after root calls).faults = .invalidPath file.path fault :: more := by
      rw [after, hafter]
      exact hfaults
    rw [build, hall]

theorem build_after_eq_ok {root : String} {calls : List DraftCall} {tree : OutputTree}
    (h : (after root calls).build = .ok tree) :
    Sound (DraftCall.files calls) ∧ ∃ globs,
      (DraftCall.allPatterns calls).mapM IgnoreRules.glob = .ok globs ∧
        tree = ⟨root, DraftCall.files calls, ⟨globs⟩⟩ := by
  rcases build_after_cases root calls with
    ⟨hsound, globs, hglobs, hbuild⟩ | ⟨-, e, -, hbuild⟩ | ⟨e, -, hbuild⟩
  · rw [hbuild] at h
    exact ⟨hsound, globs, hglobs, (Except.ok.inj h).symm⟩
  · rw [hbuild] at h
    cases h
  · rw [hbuild] at h
    cases h

theorem build_after_eq_error {root : String} {calls : List DraftCall} {e : OutputError}
    (h : (after root calls).build = .error e) :
    RefusedFirst (DraftCall.files calls) e ∨
      Sound (DraftCall.files calls) ∧
        FailsFirst IgnoreRules.glob (DraftCall.allPatterns calls) e := by
  rcases build_after_cases root calls with
    ⟨-, globs, -, hbuild⟩ | ⟨hsound, e', hfails, hbuild⟩ | ⟨e', hrefused, hbuild⟩
  · rw [hbuild] at h
    cases h
  · rw [hbuild] at h
    obtain rfl := Except.error.inj h
    exact .inr ⟨hsound, hfails⟩
  · rw [hbuild] at h
    obtain rfl := Except.error.inj h
    exact .inl hrefused

theorem exists_build_after_iff (root : String) (calls : List DraftCall) :
    (∃ tree, (after root calls).build = .ok tree) ↔
      (∀ file ∈ DraftCall.files calls, Path.outputFault? file.path = none) ∧
      ((DraftCall.files calls).map GeneratedFile.path).Nodup ∧
      ∀ pattern ∈ DraftCall.allPatterns calls, ∃ glob, IgnoreRules.glob pattern = .ok glob := by
  constructor
  · rintro ⟨tree, htree⟩
    obtain ⟨hsound, globs, hglobs, -⟩ := build_after_eq_ok htree
    exact ⟨hsound.valid, hsound.distinct, exists_mapM_eq_ok_iff.1 ⟨globs, hglobs⟩⟩
  · rintro ⟨hvalid, hdistinct, hglobs⟩
    cases hbuild : (after root calls).build with
    | ok tree => exact ⟨tree, rfl⟩
    | error e =>
        rcases build_after_eq_error hbuild with hrefused | ⟨-, hfails⟩
        · exact absurd ⟨hvalid, hdistinct⟩ hrefused.not_sound
        · exact absurd hglobs hfails.not_forall_ok

/-- A tree is built exactly when all paths are sound and all patterns are globs.  It holds the files
that were added, and each of them stands below the root: its steps on disk are those of the root
and then the names of its path, of which there is at least one, and so is its place in every file
system.  Otherwise the error is that of the first path that is refused, or, if there is none, that
of the first bad pattern. -/
theorem build_after (root : String) (calls : List DraftCall) :
    ((∃ tree, (after root calls).build = .ok tree) ↔
      (∀ file ∈ DraftCall.files calls, Path.outputFault? file.path = none) ∧
      ((DraftCall.files calls).map GeneratedFile.path).Nodup ∧
      ∀ pattern ∈ DraftCall.allPatterns calls, ∃ glob, IgnoreRules.glob pattern = .ok glob) ∧
    (∀ tree, (after root calls).build = .ok tree →
      tree.root = root ∧ tree.files = DraftCall.files calls ∧
      List.Forall₂ (fun pattern glob => IgnoreRules.glob pattern = .ok glob)
        (DraftCall.allPatterns calls) tree.ignore.globs ∧
      ∀ file ∈ DraftCall.files calls, Path.names file.path ≠ [] ∧
        Path.components (tree.diskPath file.path) =
          Path.components root ++ (Path.names file.path).map .name ∧
        ∀ fs : FileSystem, fs.place (tree.diskPath file.path) =
          ((Path.names file.path).map String.ofList).reverse ++ fs.place root) ∧
    ∀ e, (after root calls).build = .error e →
      RefusedFirst (DraftCall.files calls) e ∨
        Sound (DraftCall.files calls) ∧
          FailsFirst IgnoreRules.glob (DraftCall.allPatterns calls) e := by
  refine ⟨exists_build_after_iff root calls, fun tree htree => ?_, fun e => build_after_eq_error⟩
  obtain ⟨hsound, globs, hglobs, rfl⟩ := build_after_eq_ok htree
  refine ⟨rfl, rfl, forall₂_of_mapM hglobs, fun file hfile => ?_⟩
  have hvalid := hsound.valid file hfile
  exact ⟨Path.names_ne_nil hvalid, OutputTree.components_diskPath _ hvalid,
    fun fs => OutputTree.place_diskPath_names _ fs hvalid⟩

/-! ## Files that meet on disk -/

/-- Files of the tree with different paths have different steps on disk. -/
def FilesApart (tree : OutputTree) : Prop :=
  ∀ first ∈ tree.files, ∀ second ∈ tree.files, first.path ≠ second.path →
    Path.components (tree.diskPath first.path) ≠ Path.components (tree.diskPath second.path)

variable {tree : OutputTree} {first second : GeneratedFile}

theorem Sound.components_eq_iff (h : Sound tree.files) (hfirst : first ∈ tree.files)
    (hsecond : second ∈ tree.files) :
    Path.components (tree.diskPath first.path) = Path.components (tree.diskPath second.path) ↔
      Path.names first.path = Path.names second.path :=
  tree.components_diskPath_eq_iff (h.valid first hfirst) (h.valid second hsecond)

/-- Files stay apart exactly when no names of a path come twice. -/
theorem Sound.filesApart_iff (h : Sound tree.files) :
    FilesApart tree ↔ (tree.files.map fun file => Path.names file.path).Nodup := by
  constructor
  · intro hapart
    have hdistinct := h.distinct
    rw [List.Nodup, List.pairwise_map] at hdistinct ⊢
    refine hdistinct.imp_of_mem fun hfirst hsecond hne hnames => ?_
    exact hapart _ hfirst _ hsecond hne ((h.components_eq_iff hfirst hsecond).2 hnames)
  · intro hnames first hfirst second hsecond hne hsame
    have hfiles : first = second := List.inj_on_of_nodup_map hnames hfirst hsecond
      ((h.components_eq_iff hfirst hsecond).1 hsame)
    exact hne (congrArg GeneratedFile.path hfiles)

/-- A path without idle segments is known from its names. -/
theorem Sound.filesApart_of_tight (h : Sound tree.files)
    (htight : ∀ file ∈ tree.files, Path.Tight file.path) : FilesApart tree := by
  intro first hfirst second hsecond hne hsame
  have hnames := (h.components_eq_iff hfirst hsecond).1 hsame
  rw [(htight first hfirst).names_eq (h.valid first hfirst),
    (htight second hsecond).names_eq (h.valid second hsecond)] at hnames
  exact hne (String.toList_inj.1 (Path.segments_injective hnames))

/-- Two files of a tree have the same steps on disk, and the same place in every file system,
exactly when their paths have the same names.  So files with different paths have different steps
exactly when no two paths have the same names, as it is when no path has a segment that is empty
or `.`. -/
theorem files_meet_iff {root : String} {calls : List DraftCall} {tree : OutputTree}
    (h : (after root calls).build = .ok tree) :
    (∀ first ∈ tree.files, ∀ second ∈ tree.files,
      (Path.components (tree.diskPath first.path) = Path.components (tree.diskPath second.path) ↔
        Path.names first.path = Path.names second.path) ∧
      ∀ fs : FileSystem,
        fs.place (tree.diskPath first.path) = fs.place (tree.diskPath second.path) ↔
          Path.names first.path = Path.names second.path) ∧
    (FilesApart tree ↔ (tree.files.map fun file => Path.names file.path).Nodup) ∧
    ((∀ file ∈ tree.files, Path.Tight file.path) → FilesApart tree) := by
  obtain ⟨hsound, globs, -, htree⟩ := build_after_eq_ok h
  have hfiles : tree.files = DraftCall.files calls := by rw [htree]
  rw [← hfiles] at hsound
  refine ⟨fun first hfirst second hsecond => ?_, hsound.filesApart_iff, hsound.filesApart_of_tight⟩
  refine ⟨hsound.components_eq_iff hfirst hsecond, fun fs => ?_⟩
  exact tree.place_diskPath_eq_iff fs (hsound.valid first hfirst) (hsound.valid second hsecond)

/-- Two files whose paths differ by a `/`. -/
def slashedTwins : List DraftCall :=
  [.add ⟨"x/a.ts", "1"⟩, .add ⟨"x//a.ts", "2"⟩]

theorem build_slashedTwins : (after "out" slashedTwins).build =
    .ok ⟨"out", [⟨"x/a.ts", "1"⟩, ⟨"x//a.ts", "2"⟩], ⟨[]⟩⟩ := by
  rfl

/-- A tree is built although two of its files have different paths and the same steps on disk. -/
theorem distinct_paths_meet :
    ¬ ∀ (root : String) (calls : List DraftCall) (tree : OutputTree),
      (after root calls).build = .ok tree → FilesApart tree := by
  intro hall
  refine hall "out" slashedTwins _ build_slashedTwins ⟨"x/a.ts", "1"⟩ (by simp)
    ⟨"x//a.ts", "2"⟩ (by simp) (by simp) ?_
  decide +kernel

theorem files_meet_iff_slashedTwins :
    ∃ tree, (after "out" slashedTwins).build = .ok tree ∧
      ¬ (tree.files.map fun file => Path.names file.path).Nodup ∧ ¬ FilesApart tree ∧
      ∀ fs : FileSystem, fs.place (tree.diskPath "x/a.ts") = fs.place (tree.diskPath "x//a.ts") := by
  obtain ⟨hmeet, hapart, -⟩ := files_meet_iff build_slashedTwins
  have hnames : ¬ ([⟨"x/a.ts", "1"⟩, ⟨"x//a.ts", "2"⟩].map fun file : GeneratedFile =>
      Path.names file.path).Nodup := by
    decide +kernel
  refine ⟨_, build_slashedTwins, hnames, fun h => hnames (hapart.1 h), fun fs => ?_⟩
  exact ((hmeet ⟨"x/a.ts", "1"⟩ (by simp) ⟨"x//a.ts", "2"⟩ (by simp)).2 fs).2 (by decide +kernel)

end OutputDraft

end ClientLoom
