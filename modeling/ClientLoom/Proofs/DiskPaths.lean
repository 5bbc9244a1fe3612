import ClientLoom.Output.Tree
import ClientLoom.Proofs.FileSystemGrowth

/-!
# Paths of the output on disk

The way to a file of an output tree is the way to the root and then that of the path of the file.
Below a root that can be reached nothing that stands at its place is hidden, since a path of the
output leads downward only.  So a hidden file comes to light once the root can be reached.
-/

namespace ClientLoom

namespace FileSystem

/-! ## Ways and places -/

theorem walk_append (fs : FileSystem) (location : Location) (front back : List (List Char)) :
    fs.walk location (front ++ back) =
      fs.walk location front >>= fun next => fs.walk next back := by
  induction front generalizing location with
  | nil => rfl
  | cons segment front ih =>
      rw [List.cons_append, walk, walk]
      cases hstep : fs.step location segment with
      | error fault => rfl
      | ok next => exact ih next

theorem walk_filter (fs : FileSystem) (location : Location) (segments : List (List Char)) :
    fs.walk location (segments.filter (· ≠ [])) = fs.walk location segments := by
  induction segments generalizing location with
  | nil => rfl
  | cons segment rest ih =>
      by_cases hempty : segment = []
      · subst hempty
        rw [List.filter_cons_of_neg (by simp), ih]
        rfl
      · rw [List.filter_cons_of_pos (by simpa using hempty), walk, walk]
        cases hstep : fs.step location segment with
        | error fault => rfl
        | ok next => exact ih next

theorem foldl_stepPlace_filter (location : Location) (segments : List (List Char)) :
    (segments.filter (· ≠ [])).foldl stepPlace location = segments.foldl stepPlace location := by
  induction segments generalizing location with
  | nil => rfl
  | cons segment rest ih =>
      by_cases hempty : segment = []
      · subst hempty
        rw [List.filter_cons_of_neg (by simp), ih]
        rfl
      · rw [List.filter_cons_of_pos (by simpa using hempty)]
        exact ih _

theorem way_eq_solid (fs : FileSystem) (path : String) :
    fs.way path = fs.walk (fs.start path) (Path.solid path.toList) :=
  (fs.walk_filter _ _).symm

theorem place_eq_solid (fs : FileSystem) (path : String) :
    fs.place path = (Path.solid path.toList).foldl stepPlace (fs.start path) :=
  (foldl_stepPlace_filter _ _).symm

end FileSystem

namespace OutputTree

theorem solid_diskPath (tree : OutputTree) (path : String) :
    Path.solid (tree.diskPath path).toList =
      Path.solid tree.root.toList ++ Path.solid path.toList :=
  (Path.solid_foldl_join tree.root fun _ => Path.slash_not_mem_segment).1

@[simp] theorem start_diskPath (tree : OutputTree) (fs : FileSystem) (path : String) :
    fs.start (tree.diskPath path) = fs.start tree.root := by
  have hstart := (Path.solid_foldl_join tree.root
    fun part (hpart : part ∈ Path.segments path.toList) => Path.slash_not_mem_segment hpart).2
  rw [FileSystem.start, FileSystem.start, diskPath, hstart]

theorem way_diskPath (tree : OutputTree) (fs : FileSystem) (path : String) :
    fs.way (tree.diskPath path) =
      fs.way tree.root >>= fun next => fs.walk next (Path.segments path.toList) := by
  rw [fs.way_eq_solid, tree.start_diskPath, tree.solid_diskPath, fs.walk_append,
    ← fs.way_eq_solid]
  congr 1
  funext next
  exact fs.walk_filter next _

theorem place_diskPath (tree : OutputTree) (fs : FileSystem) (path : String) :
    fs.place (tree.diskPath path) =
      (Path.segments path.toList).foldl FileSystem.stepPlace (fs.place tree.root) := by
  rw [fs.place_eq_solid, tree.start_diskPath, tree.solid_diskPath, List.foldl_append,
    ← fs.place_eq_solid]
  exact FileSystem.foldl_stepPlace_filter _ _

theorem diskPath_ne_empty (tree : OutputTree) {path : String}
    (h : Path.outputFault? path = none) : tree.diskPath path ≠ "" := by
  intro hempty
  have hsolid := tree.solid_diskPath path
  rw [hempty] at hsolid
  have hnone : Path.solid path.toList = [] := (List.append_eq_nil_iff.1 hsolid.symm).2
  exact (Path.of_outputFault?_eq_none h).1 hnone

end OutputTree

namespace FileSystem

/-! ## Hidden files -/

theorem Rooted.entry?_of_suffix {fs : FileSystem} (h : fs.Rooted) {location above : Location}
    (hentry : fs.entry? location ≠ none) (habove : above <:+ location) :
    fs.entry? above ≠ none := by
  induction location with
  | nil =>
      obtain rfl := List.suffix_nil.1 habove
      exact hentry
  | cons name location ih =>
      rcases List.suffix_cons_iff.1 habove with rfl | habove
      · exact hentry
      · refine ih ?_ habove
        have hparent := h.entry?_tail hentry
        rw [List.tail_cons] at hparent
        rw [hparent]
        exact Option.some_ne_none _

/-- Segments that do not lead upward lead below. -/
theorem suffix_foldl_stepPlace {segments : List (List Char)} (location : Location)
    (h : ∀ segment ∈ segments, segment ≠ ['.', '.']) :
    location <:+ segments.foldl stepPlace location := by
  induction segments generalizing location with
  | nil => exact List.suffix_rfl
  | cons segment rest ih =>
      have hstep : location <:+ stepPlace location segment := by
        rw [stepPlace]
        split
        · exact List.suffix_rfl
        · rw [if_neg (h segment List.mem_cons_self)]
          exact List.suffix_cons _ _
      exact hstep.trans (ih _ fun other hother => h other (List.mem_cons_of_mem segment hother))

theorem entry?_of_step_notFound {fs : FileSystem} {location : Location} {segment : List Char}
    (h : fs.step location segment = .error .notFound) : fs.entry? location = none := by
  unfold step requireDirectory at h
  split at h
  · cases h
  · cases hfound : fs.entry? location with
    | none => rfl
    | some entry =>
        rw [hfound] at h
        cases entry with
        | file content => cases h
        | directory =>
            -- A directory lets every segment pass, up to the length of its name.
            simp only [bind, Except.bind] at h
            split at h
            · cases h
            · split at h
              · cases h
              · split at h <;> cases h

/-- Nothing is missing on a way downward along which something stands everywhere. -/
theorem walk_ne_notFound {fs : FileSystem} {segments : List (List Char)} {location : Location}
    (hdown : ∀ segment ∈ segments, segment ≠ ['.', '.'])
    (hentry : ∀ above, above <:+ segments.foldl stepPlace location → fs.entry? above ≠ none) :
    fs.walk location segments ≠ .error .notFound := by
  induction segments generalizing location with
  | nil => exact fun habsurd => by cases habsurd
  | cons segment rest ih =>
      have hhere : fs.entry? location ≠ none :=
        hentry location (suffix_foldl_stepPlace location hdown)
      rw [walk]
      cases hstep : fs.step location segment with
      | ok next =>
          refine ih (fun other hother => hdown other (List.mem_cons_of_mem segment hother)) ?_
          rw [stepPlace_of_step hstep]
          exact hentry
      | error fault =>
          intro hmissing
          obtain rfl : fault = .notFound := Except.error.inj hmissing
          exact hhere (entry?_of_step_notFound hstep)

variable {tree : OutputTree} {path : String}

/-- Below a root that can be reached, what stands at its place is found. -/
theorem read_diskPath_ne_notFound {fs : FileSystem} (hpath : Path.outputFault? path = none)
    (hentry : ∀ above, above <:+ fs.place (tree.diskPath path) → fs.entry? above ≠ none)
    (hroot : fs.way tree.root ≠ .error .notFound) :
    fs.read (tree.diskPath path) ≠ .error .notFound := by
  have hway : fs.way (tree.diskPath path) ≠ .error .notFound := by
    rw [tree.way_diskPath]
    cases hreached : fs.way tree.root with
    | error fault =>
        rw [hreached] at hroot
        exact fun hmissing => hroot (by cases hmissing; rfl)
    | ok location =>
        rw [tree.place_diskPath, ← place_of_way hreached] at hentry
        exact walk_ne_notFound (Path.of_outputFault?_eq_none hpath).2 hentry
  intro hread
  cases hlocate : fs.locate (tree.diskPath path) with
  | error fault =>
      have hfault : fault = .notFound := by
        unfold read at hread
        rw [hlocate] at hread
        exact Except.error.inj hread
      rw [hfault] at hlocate
      exact hway (way_eq_notFound (tree.diskPath_ne_empty hpath) hlocate)
  | ok location =>
      rw [read_of_locate hlocate] at hread
      rw [← place_of_locate hlocate] at hentry
      split at hread
      · rename_i hnone
        exact hentry location List.suffix_rfl hnone
      · cases hread
      · split at hread <;> cases hread

theorem Hidden.entry?_ne_none {fs : FileSystem} (hfs : fs.Rooted) (h : fs.Hidden path)
    {above : Location} (habove : above <:+ fs.place path) : fs.entry? above ≠ none := by
  obtain ⟨-, content, hentry⟩ := h
  refine hfs.entry?_of_suffix ?_ habove
  rw [hentry]
  exact Option.some_ne_none _

/-- Hidden files come to light as soon as the root can be reached. -/
theorem Hidden.revealed {touched : Location → Prop} {before after : FileSystem}
    (hgrown : Grown touched before after) (hfs : before.Rooted)
    (hpath : Path.outputFault? path = none) (h : before.Hidden (tree.diskPath path))
    (hroot : after.way tree.root ≠ .error .notFound) :
    after.read (tree.diskPath path) ≠ .error .notFound := by
  refine read_diskPath_ne_notFound hpath ?_ hroot
  intro above habove
  rw [place_congr hgrown.directory] at habove
  exact hgrown.entry?_ne_none (h.entry?_ne_none hfs habove)

end FileSystem

end ClientLoom
