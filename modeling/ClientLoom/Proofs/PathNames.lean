import ClientLoom.Proofs.DiskPaths

/-!
# Names of a path

The steps of a path are those of its segments behind a mark, which says where the path starts.  A
path of the output has no mark, and its steps are its names.  On disk they come behind the steps of
the root, so that a file of the output stands strictly below the root, at a place that the names
alone fix.
-/

namespace ClientLoom

namespace Path

/-! ## Names -/

/-- The segment is the name of a file or directory. -/
def IsName (segment : List Char) : Prop :=
  segment ≠ [] ∧ segment ≠ ['.'] ∧ segment ≠ ['.', '.']

instance (segment : List Char) : Decidable (IsName segment) :=
  inferInstanceAs (Decidable (_ ∧ _ ∧ _))

/-- The names in a path, in order. -/
def names (path : String) : List (List Char) :=
  (segments path.toList).filter IsName

theorem component?_of_isName {segment : List Char} (h : IsName segment) :
    component? segment = some (.name segment) := by
  obtain ⟨hempty, hdot, hdots⟩ := h
  simp [component?, hempty, hdot, hdots]

/-- A segment that does not lead upward is a name or means nothing. -/
theorem isName_or_component?_eq_none {segment : List Char} (h : segment ≠ ['.', '.']) :
    IsName segment ∨ component? segment = none := by
  by_cases hempty : segment = []
  · exact .inr (by simp [component?, hempty])
  · by_cases hdot : segment = ['.']
    · exact .inr (by simp [component?, hdot])
    · exact .inl ⟨hempty, hdot, h⟩

theorem not_isName_of_component?_eq_none {segment : List Char} (h : component? segment = none) :
    ¬ IsName segment := by
  intro hname
  rw [component?_of_isName hname] at h
  cases h

/-- Where nothing leads upward, the steps of segments are their names. -/
theorem filterMap_component? {parts : List (List Char)} (h : ∀ part ∈ parts, part ≠ ['.', '.']) :
    parts.filterMap component? = (parts.filter IsName).map .name := by
  induction parts with
  | nil => rfl
  | cons part parts ih =>
      have hparts := ih fun other hother => h other (List.mem_cons_of_mem part hother)
      rcases isName_or_component?_eq_none (h part List.mem_cons_self) with hname | hnone
      · rw [List.filterMap_cons_some (component?_of_isName hname),
          List.filter_cons_of_pos (by simpa using hname), hparts, List.map_cons]
      · rw [List.filterMap_cons_none hnone,
          List.filter_cons_of_neg (by simpa using not_isName_of_component?_eq_none hnone), hparts]

/-! ## Steps -/

/-- What the steps of a path show of its start: the root, or a `.` in front. -/
def mark (path : String) : List Component :=
  if isAbsolute path then [.root]
  else if (segments path.toList).head? = some ['.'] then [.current]
  else []

@[simp] theorem filterMap_solid (text : List Char) :
    (solid text).filterMap component? = (segments text).filterMap component? := by
  rw [solid, List.filterMap_filter]
  refine List.filterMap_congr fun segment _ => ?_
  by_cases hempty : segment = []
  · simp [hempty, component?]
  · simp [hempty]

theorem components_eq (path : String) :
    components path = mark path ++ (solid path.toList).filterMap component? := by
  rw [filterMap_solid, components, componentsOf, mark]
  by_cases hroot : path.toList.head? = some '/'
  · simp [isAbsolute, hroot]
  · by_cases hdot : (segments path.toList).head? = some ['.']
    · simp [isAbsolute, hroot, hdot]
    · simp [isAbsolute, hroot, hdot]

/-- The first segment of a path that is not absolute is empty only if the path is. -/
theorem head?_segments_eq_dot {path : String} (h : isAbsolute path = false) :
    (segments path.toList).head? = some ['.'] ↔ (solid path.toList).head? = some ['.'] := by
  cases htext : path.toList with
  | nil => simp [solid, segments]
  | cons c rest =>
      have hc : c ≠ '/' := by
        rintro rfl
        simp [isAbsolute, htext] at h
      obtain ⟨first, others, -, hcons⟩ := segments_cons_of_ne hc rest
      simp [solid, hcons]

/-! ## Paths of the output -/

/-- A path of the output is not empty, and each of its steps is a name. -/
theorem steps_of_outputFault?_eq_none {path : String} (h : outputFault? path = none) :
    path ≠ "" ∧ ∀ step ∈ components path, step.fault? = none := by
  unfold outputFault? at h
  split at h
  · cases h
  · rename_i hempty
    split at h
    · cases h
    · refine ⟨fun hpath => hempty (String.isEmpty_iff.2 hpath), ?_⟩
      exact List.findSome?_eq_none_iff.1 h

theorem mark_of_outputFault?_eq_none {path : String} (h : outputFault? path = none) :
    mark path = [] := by
  have hsteps := (steps_of_outputFault?_eq_none h).2
  rw [components_eq] at hsteps
  have hmark : ∀ step ∈ mark path, step.fault? = none := fun step hstep =>
    hsteps step (List.mem_append_left _ hstep)
  unfold mark at hmark ⊢
  split
  · rename_i hroot
    rw [if_pos hroot] at hmark
    exact absurd (hmark .root List.mem_cons_self) (by simp [Component.fault?])
  · rename_i hroot
    split
    · rename_i hdot
      rw [if_neg hroot, if_pos hdot] at hmark
      exact absurd (hmark .current List.mem_cons_self) (by simp [Component.fault?])
    · rfl

theorem relative_of_outputFault?_eq_none {path : String} (h : outputFault? path = none) :
    isAbsolute path = false ∧ (solid path.toList).head? ≠ some ['.'] := by
  have hmark := mark_of_outputFault?_eq_none h
  have hrelative : isAbsolute path = false := by
    rw [Bool.eq_false_iff]
    intro habsolute
    rw [mark, if_pos habsolute] at hmark
    cases hmark
  refine ⟨hrelative, fun hdot => ?_⟩
  rw [mark, if_neg (by simp [hrelative]), if_pos ((head?_segments_eq_dot hrelative).2 hdot)] at hmark
  cases hmark

theorem filterMap_of_outputFault?_eq_none {path : String} (h : outputFault? path = none) :
    (solid path.toList).filterMap component? = (names path).map .name := by
  rw [filterMap_solid]
  exact filterMap_component? (of_outputFault?_eq_none h).2

theorem names_ne_nil {path : String} (h : outputFault? path = none) : names path ≠ [] := by
  obtain ⟨hsolid, hup⟩ := of_outputFault?_eq_none h
  have hdot := (relative_of_outputFault?_eq_none h).2
  cases hparts : solid path.toList with
  | nil => exact absurd hparts hsolid
  | cons first others =>
      -- The first segment that is not empty is a name, since a `.` there would be a mark.
      have hfirst : first ∈ solid path.toList := by simp [hparts]
      obtain ⟨hmem, hempty⟩ := List.mem_filter.1 hfirst
      have hname : IsName first := by
        refine ⟨by simpa using hempty, fun hfirst => hdot ?_, hup first hmem⟩
        rw [hparts, hfirst]
        rfl
      exact List.ne_nil_of_mem (List.mem_filter.2 ⟨hmem, by simpa using hname⟩)

/-! ## Paths without idle segments -/

theorem segments_ne_nil (text : List Char) : segments text ≠ [] := by
  cases text with
  | nil => exact List.cons_ne_nil _ _
  | cons c text =>
      by_cases hc : c = '/'
      · rw [segments, if_pos hc]
        exact List.cons_ne_nil _ _
      · obtain ⟨first, others, -, hcons⟩ := segments_cons_of_ne hc text
        rw [hcons]
        exact List.cons_ne_nil _ _

/-- A text is made up of its segments. -/
@[simp] theorem intercalate_segments (text : List Char) :
    ['/'].intercalate (segments text) = text := by
  induction text with
  | nil => rfl
  | cons c text ih =>
      by_cases hc : c = '/'
      · subst hc
        cases hparts : segments text with
        | nil => exact absurd hparts (segments_ne_nil text)
        | cons first others =>
            rw [segments, if_pos rfl, hparts, List.intercalate_cons_cons, ← hparts, ih]
            rfl
      · -- Another character belongs to the first segment of the rest.
        obtain ⟨first, others, htext, hcons⟩ := segments_cons_of_ne hc text
        rw [htext] at ih
        rw [hcons, ← ih]
        cases others with
        | nil => simp
        | cons second others => simp [List.intercalate_cons_cons]

theorem segments_injective : Function.Injective segments := by
  intro text text' h
  rw [← intercalate_segments text, h, intercalate_segments]

/-- No segment of the path is empty or `.`. -/
def Tight (path : String) : Prop :=
  ∀ segment ∈ segments path.toList, segment ≠ [] ∧ segment ≠ ['.']

theorem Tight.names_eq {path : String} (h : Tight path) (hpath : outputFault? path = none) :
    names path = segments path.toList := by
  refine List.filter_eq_self.2 fun segment hsegment => ?_
  obtain ⟨hempty, hdot⟩ := h segment hsegment
  exact decide_eq_true ⟨hempty, hdot, (of_outputFault?_eq_none hpath).2 segment hsegment⟩

end Path

/-! ## Steps and places on disk -/

namespace OutputTree

open ClientLoom.Path (names mark solid components)

variable {path : String}

@[simp] theorem isAbsolute_diskPath (tree : OutputTree) (path : String) :
    Path.isAbsolute (tree.diskPath path) = Path.isAbsolute tree.root :=
  (Path.solid_foldl_join tree.root fun _ => Path.slash_not_mem_segment).2

/-- The root alone says where the path of a file on disk starts. -/
theorem mark_diskPath (tree : OutputTree) (h : Path.outputFault? path = none) :
    mark (tree.diskPath path) = mark tree.root := by
  unfold mark
  rw [tree.isAbsolute_diskPath]
  by_cases hroot : Path.isAbsolute tree.root = true
  · rw [if_pos hroot, if_pos hroot]
  · rw [if_neg hroot, if_neg hroot]
    have hrelative := Bool.eq_false_iff.2 hroot
    have hdisk : Path.isAbsolute (tree.diskPath path) = false :=
      (tree.isAbsolute_diskPath path).trans hrelative
    have hhead : (Path.segments (tree.diskPath path).toList).head? = some ['.'] ↔
        (Path.segments tree.root.toList).head? = some ['.'] := by
      rw [Path.head?_segments_eq_dot hdisk, Path.head?_segments_eq_dot hrelative,
        tree.solid_diskPath]
      cases hparts : solid tree.root.toList with
      | nil =>
          -- The root is empty, and the path does not start with a `.` of its own.
          simpa using (Path.relative_of_outputFault?_eq_none h).2
      | cons first others => simp
    simp only [hhead]

/-- The steps of a file on disk are those of the root, and then the names of its path. -/
theorem components_diskPath (tree : OutputTree) (h : Path.outputFault? path = none) :
    components (tree.diskPath path) = components tree.root ++ (names path).map .name := by
  rw [Path.components_eq, tree.mark_diskPath h, tree.solid_diskPath, List.filterMap_append,
    Path.filterMap_of_outputFault?_eq_none h, ← List.append_assoc, ← Path.components_eq]

theorem components_diskPath_eq_iff (tree : OutputTree) {path' : String}
    (h : Path.outputFault? path = none) (h' : Path.outputFault? path' = none) :
    components (tree.diskPath path) = components (tree.diskPath path') ↔
      names path = names path' := by
  have hinjective : Function.Injective Path.Component.name := fun _ _ => Path.Component.name.inj
  rw [tree.components_diskPath h, tree.components_diskPath h', List.append_cancel_left_eq,
    (List.map_injective_iff.2 hinjective).eq_iff]

/-- Segments that do not lead upward add their names to a place. -/
theorem foldl_stepPlace_names {segments : List (List Char)} (location : Location)
    (h : ∀ segment ∈ segments, segment ≠ ['.', '.']) :
    segments.foldl FileSystem.stepPlace location =
      ((segments.filter Path.IsName).map String.ofList).reverse ++ location := by
  induction segments generalizing location with
  | nil => rfl
  | cons segment rest ih =>
      have hrest := fun location => ih location fun other hother =>
        h other (List.mem_cons_of_mem segment hother)
      by_cases hname : Path.IsName segment
      · have hstep : FileSystem.stepPlace location segment = String.ofList segment :: location := by
          obtain ⟨hempty, hdot, hdots⟩ := hname
          simp [FileSystem.stepPlace, hempty, hdot, hdots]
        rw [List.foldl_cons, hrest, hstep,
          List.filter_cons_of_pos (by simpa using hname), List.map_cons, List.reverse_cons,
          List.append_assoc, List.singleton_append]
      · have hstep : FileSystem.stepPlace location segment = location := by
          have hidle : segment = [] ∨ segment = ['.'] := by
            by_contra hidle
            rw [not_or] at hidle
            exact hname ⟨hidle.1, hidle.2, h segment List.mem_cons_self⟩
          rw [FileSystem.stepPlace, if_pos hidle]
        rw [List.foldl_cons, hrest, hstep, List.filter_cons_of_neg (by simpa using hname)]

/-- A file stands below the place of the root, at the end of the names of its path. -/
theorem place_diskPath_names (tree : OutputTree) (fs : FileSystem)
    (h : Path.outputFault? path = none) :
    fs.place (tree.diskPath path) =
      ((names path).map String.ofList).reverse ++ fs.place tree.root := by
  rw [tree.place_diskPath, names]
  exact foldl_stepPlace_names _ (Path.of_outputFault?_eq_none h).2

theorem place_diskPath_eq_iff (tree : OutputTree) (fs : FileSystem) {path' : String}
    (h : Path.outputFault? path = none) (h' : Path.outputFault? path' = none) :
    fs.place (tree.diskPath path) = fs.place (tree.diskPath path') ↔ names path = names path' := by
  have hinjective : Function.Injective String.ofList := fun _ _ => String.ofList_inj.1
  rw [tree.place_diskPath_names fs h, tree.place_diskPath_names fs h',
    List.append_cancel_right_eq, List.reverse_inj, (List.map_injective_iff.2 hinjective).eq_iff]

end OutputTree

end ClientLoom
