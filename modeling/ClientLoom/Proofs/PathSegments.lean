import ClientLoom.Output.Tree

/-!
# Segments of a path

Joining paths puts their segments one behind the other, up to empty ones, which mean nothing.  A
path that an output tree accepts has a segment that is not empty, and none that leads upward.
-/

namespace ClientLoom

namespace Path

/-! ## Segments -/

theorem segments_cons_of_ne {c : Char} (hc : c ≠ '/') (rest : List Char) :
    ∃ first others, segments rest = first :: others ∧
      segments (c :: rest) = (c :: first) :: others := by
  cases rest with
  | nil => exact ⟨[], [], rfl, by simp [segments, hc]⟩
  | cons d rest =>
      cases hrest : segments (d :: rest) with
      | nil =>
          rw [segments] at hrest
          split at hrest
          · cases hrest
          · split at hrest <;> cases hrest
      | cons first others =>
          refine ⟨first, others, rfl, ?_⟩
          rw [segments, if_neg hc, hrest]

@[simp] theorem segments_append_slash (front back : List Char) :
    segments (front ++ '/' :: back) = segments front ++ segments back := by
  induction front with
  | nil => simp [segments]
  | cons c front ih =>
      by_cases hc : c = '/'
      · subst hc
        simp [segments, ih]
      · obtain ⟨first, others, hfront, hcons⟩ := segments_cons_of_ne hc front
        rw [hcons, List.cons_append, segments, if_neg hc, ih, hfront]
        rfl

theorem slash_not_mem_segment {text segment : List Char} (h : segment ∈ segments text) :
    '/' ∉ segment := by
  induction text generalizing segment with
  | nil =>
      obtain rfl : segment = [] := by simpa [segments] using h
      exact List.not_mem_nil
  | cons c text ih =>
      by_cases hc : c = '/'
      · subst hc
        rw [segments, if_pos rfl] at h
        rcases List.mem_cons.1 h with rfl | h
        · exact List.not_mem_nil
        · exact ih h
      · obtain ⟨first, others, htext, hcons⟩ := segments_cons_of_ne hc text
        rw [hcons] at h
        rcases List.mem_cons.1 h with rfl | h
        · have hfirst : '/' ∉ first := ih (by rw [htext]; exact List.mem_cons_self)
          simpa [Ne.symm hc] using hfirst
        · exact ih (by rw [htext]; exact List.mem_cons_of_mem first h)

theorem segments_of_slash_not_mem {text : List Char} (h : '/' ∉ text) : segments text = [text] := by
  induction text with
  | nil => rfl
  | cons c text ih =>
      rw [List.mem_cons, not_or] at h
      obtain ⟨hc, htext⟩ := h
      rw [segments, if_neg (Ne.symm hc), ih htext]

/-- The segments that are not empty. -/
def solid (text : List Char) : List (List Char) :=
  (segments text).filter (· ≠ [])

theorem solid_join {directory path : String} (hpath : isAbsolute path = false) :
    solid (join directory path).toList = solid directory.toList ++ solid path.toList := by
  rw [join, if_neg (by simp [hpath])]
  by_cases hempty : directory.isEmpty = true
  · simp [String.isEmpty_iff.1 hempty, solid, segments]
  · by_cases hslash : directory.toList.getLast? = some '/'
    · obtain ⟨front, hfront⟩ := List.getLast?_eq_some_iff.1 hslash
      rw [if_pos (by simp [hslash]), String.toList_append, hfront, List.append_assoc,
        List.singleton_append]
      simp [solid, segments_append_slash, segments]
    · rw [if_neg (by simp [hempty, hslash]), String.toList_append, String.toList_append,
        List.append_assoc]
      simp [solid, segments_append_slash]

theorem isAbsolute_join {directory path : String} (hpath : isAbsolute path = false) :
    isAbsolute (join directory path) = isAbsolute directory := by
  rw [join, if_neg (by simp [hpath])]
  by_cases hempty : directory.isEmpty = true
  · obtain rfl := String.isEmpty_iff.1 hempty
    simpa [isAbsolute] using hpath
  · obtain ⟨c, rest, hdirectory⟩ : ∃ c rest, directory.toList = c :: rest := by
      cases hlist : directory.toList with
      | nil => exact absurd (by simpa using hlist) hempty
      | cons c rest => exact ⟨c, rest, rfl⟩
    split <;> simp [isAbsolute, hdirectory]

theorem isAbsolute_ofList {segment : List Char} (h : '/' ∉ segment) :
    isAbsolute (String.ofList segment) = false := by
  cases segment with
  | nil => rfl
  | cons c rest =>
      have hc : c ≠ '/' := fun hc => h (by simp [hc])
      simp [isAbsolute, hc]

/-- Joining segments to a root adds those that are not empty, and the root keeps its start. -/
theorem solid_foldl_join (root : String) {parts : List (List Char)}
    (hparts : ∀ part ∈ parts, '/' ∉ part) :
    solid (parts.foldl (fun front part => join front (String.ofList part)) root).toList =
        solid root.toList ++ parts.filter (· ≠ []) ∧
      isAbsolute (parts.foldl (fun front part => join front (String.ofList part)) root) =
        isAbsolute root := by
  induction parts generalizing root with
  | nil => simp
  | cons part parts ih =>
      have hpart : '/' ∉ part := hparts part List.mem_cons_self
      have hrelative := isAbsolute_ofList hpart
      have hsolid : solid (String.ofList part).toList = [part].filter (· ≠ []) := by
        rw [String.toList_ofList, solid, segments_of_slash_not_mem hpart]
      obtain ⟨hih, hstart⟩ :=
        ih (join root (String.ofList part)) fun other hother =>
          hparts other (List.mem_cons_of_mem part hother)
      refine ⟨?_, ?_⟩
      · rw [List.foldl_cons, hih, solid_join hrelative, hsolid, List.append_assoc,
          ← List.filter_append, List.singleton_append]
      · rw [List.foldl_cons, hstart, isAbsolute_join hrelative]

theorem solid_ne_nil {path : String} (hempty : path ≠ "") (hpath : isAbsolute path = false) :
    solid path.toList ≠ [] := by
  cases htext : path.toList with
  | nil => exact absurd (String.toList_eq_nil_iff.1 htext) hempty
  | cons c rest =>
      have hc : c ≠ '/' := by
        rintro rfl
        simp [isAbsolute, htext] at hpath
      obtain ⟨first, others, -, hcons⟩ := segments_cons_of_ne hc rest
      rw [solid, hcons]
      simp

/-! ## Paths of the output -/

/-- A path of the output starts with a name and never leads upward. -/
theorem of_outputFault?_eq_none {path : String} (h : outputFault? path = none) :
    solid path.toList ≠ [] ∧ ∀ segment ∈ segments path.toList, segment ≠ ['.', '.'] := by
  unfold outputFault? at h
  split at h
  · cases h
  · rename_i hempty
    split at h
    · cases h
    · have hfault := List.findSome?_eq_none_iff.1 h
      unfold components componentsOf at hfault
      dsimp only at hfault
      have hslash : path.toList.head? ≠ some '/' := by
        intro hslash
        rw [if_pos hslash] at hfault
        exact absurd (hfault .root List.mem_cons_self) (by simp [Component.fault?])
      rw [if_neg hslash] at hfault
      have hsteps : ∀ step ∈ (segments path.toList).filterMap component?,
          step.fault? = none := by
        intro step hstep
        refine hfault step ?_
        split
        · exact List.mem_cons_of_mem _ hstep
        · exact hstep
      refine ⟨?_, ?_⟩
      · refine solid_ne_nil (fun habsurd => hempty (String.isEmpty_iff.2 habsurd)) ?_
        simpa [isAbsolute] using hslash
      · rintro segment hsegment rfl
        have hparent := hsteps .parent (List.mem_filterMap.2 ⟨_, hsegment, rfl⟩)
        cases hparent

end Path

end ClientLoom
