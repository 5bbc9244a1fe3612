import ClientLoom.Output.Tree
import ClientLoom.Proofs.EntryLists
import ClientLoom.Proofs.CaseLetters
import ClientLoom.Proofs.GeneratedPaths
import Mathlib.Data.List.Duplicate
import Mathlib.Data.List.Pairwise

/-!
# When generated paths are distinct

The checks of a build keep the classes of services apart, and the Pascal case of the endpoints of
one service.  The name of a hook also depends on its kind, so that the query `mutateTodo` and the
mutation `todo` both give `useMutateTodo`; and a `/` in a key or a name moves a file into another
directory.  `ApiConfig.HookClash` says exactly when two hooks come to one path in one of these two
ways, and `Client.nodup_paths_iff` that no other files of a build do.
-/

namespace ClientLoom

/-! ## Names that pass the checks -/

/-- Endpoints that pass the check have Pascal cases of their own. -/
theorem ServiceModule.nodup_of_checkNames {seen : Entries String} {endpoints : List EndpointSpec}
    (hseen : seen.keys.Nodup) (h : checkNames seen endpoints = .ok ()) :
    (seen.keys ++ endpoints.map fun endpoint => Text.pascalCase endpoint.name).Nodup := by
  induction endpoints generalizing seen with
  | nil => simpa using hseen
  | cons endpoint endpoints ih =>
      rw [checkNames] at h
      split at h
      · cases h
      · rename_i hnew
        have hkey := Entries.get?_eq_none_iff.1 hnew
        have hrest := ih (Entries.nodup_keys_snoc hseen hkey endpoint.name) h
        rw [Entries.keys_snoc, List.append_assoc] at hrest
        exact hrest

/-- Services that pass the check have classes of their own. -/
theorem Client.nodup_of_checkServiceNames {seen : Entries String} {keys : List String}
    (hseen : seen.keys.Nodup) (h : checkServiceNames seen keys = .ok ()) :
    (seen.keys ++ keys.map fun key => (ServiceIdent.ofKey key).className).Nodup := by
  induction keys generalizing seen with
  | nil => simpa using hseen
  | cons key keys ih =>
      rw [checkServiceNames] at h
      split at h
      · cases h
      · rename_i hnew
        have hkey := Entries.get?_eq_none_iff.1 hnew
        have hrest := ih (Entries.nodup_keys_snoc hseen hkey key) h
        rw [Entries.keys_snoc, List.append_assoc] at hrest
        exact hrest

/-! ## The first letter of a class -/

@[simp] theorem toList_className (key : String) :
    (ServiceIdent.ofKey key).className.toList =
      Text.pascalChars key.toList ++ "Service".toList := by
  rw [ServiceIdent.ofKey, String.toList_append, Text.toList_pascalCase]

theorem head?_className_ne (key : String) :
    (ServiceIdent.ofKey key).className.toList.head? ≠ some 'q' ∧
      (ServiceIdent.ofKey key).className.toList.head? ≠ some '_' := by
  rw [toList_className]
  cases hpascal : Text.pascalChars key.toList with
  | nil => decide
  | cons c cs =>
      have hhead := Text.head?_pascalChars_ne key.toList
      rw [hpascal] at hhead
      exact hhead

/-! ## Paths of different kinds -/

theorem hookPath_ne_modulePath (className hookName key : String) :
    hookPath className hookName ≠ modulePath (ServiceIdent.ofKey key).className := by
  intro h
  -- The path of a hook starts with the `q` of `queries`, which is no upper case of anything.
  have hhead : (modulePath (ServiceIdent.ofKey key).className).toList.head? = some 'q' := by
    rw [← h]
    simp [hookPath]
  have hne : (ServiceIdent.ofKey key).className.toList ≠ [] := by
    simp [ServiceIdent.ofKey]
  rw [modulePath, String.toList_append, List.head?_append_of_ne_nil _ hne] at hhead
  exact (head?_className_ne key).1 hhead

theorem httpClientPath_ne_modulePath (key : String) :
    Client.httpClientPath ≠ modulePath (ServiceIdent.ofKey key).className := by
  intro h
  -- `Client.ts` and `Service.ts` part at the letter before the dot.
  have hchars := congrArg (fun path => (path.toList.reverse).take 4) h
  simp [modulePath, ServiceIdent.ofKey, Client.httpClientPath] at hchars

theorem httpClientPath_ne_hookPath (className hookName : String) :
    Client.httpClientPath ≠ hookPath className hookName := by
  intro h
  have hchars := congrArg (fun path => path.toList.head?) h
  simp [hookPath, Client.httpClientPath] at hchars

theorem modulePath_injective : Function.Injective modulePath := by
  intro className className' h
  exact (String.append_left_inj ".ts").1 h

/-- Two hooks have one path when the rest of their paths below `queries` is the same. -/
@[simp] theorem hookPath_eq_iff {className hookName className' hookName' : String} :
    hookPath className hookName = hookPath className' hookName' ↔
      className ++ "/" ++ hookName = className' ++ "/" ++ hookName' := by
  have hgroup : ∀ c h : String, hookPath c h = "queries/" ++ (c ++ "/" ++ h) ++ ".ts" := by
    intro c h
    simp only [hookPath, String.append_assoc]
  rw [hgroup, hgroup, String.append_left_inj, String.append_right_inj]

theorem hookPath_injective (className : String) : Function.Injective (hookPath className) := by
  intro hookName hookName' h
  exact (String.append_right_inj _).1 (hookPath_eq_iff.1 h)

/-! ## Clashes of hooks -/

namespace EndpointSpec

theorem hookName?_eq_some_iff {endpoint : EndpointSpec} {name : String} :
    endpoint.hookName? = some name ↔
      ∃ hook stem, endpoint.hook = .ok hook ∧ hook.stem? = some stem ∧
        name = stem ++ Text.pascalCase endpoint.name := by
  cases hhook : endpoint.hook with
  | error e => simp [hookName?, hhook]
  | ok hook =>
      simp only [hookName?, hhook, Option.map_eq_some_iff]
      constructor
      · rintro ⟨stem, hstem, rfl⟩
        exact ⟨hook, stem, rfl, hstem, rfl⟩
      · rintro ⟨hook', stem, hsame, hstem, rfl⟩
        obtain rfl := Except.ok.inj hsame
        exact ⟨stem, hstem, rfl⟩

/-- The query of an endpoint has the hook name of another endpoint, whose hook is of another kind. -/
def Shadows (endpoint other : EndpointSpec) : Prop :=
  (∃ options, endpoint.hook = .ok (.query options)) ∧
    ((∃ options, other.hook = .ok (.infinite options)) ∧
        Text.pascalCase endpoint.name = "Infinite" ++ Text.pascalCase other.name ∨
      (∃ options, other.hook = .ok (.mutation options)) ∧
        Text.pascalCase endpoint.name = "Mutate" ++ Text.pascalCase other.name)

theorem Shadows.hookName?_eq {endpoint other : EndpointSpec} (h : endpoint.Shadows other) :
    ∃ name, endpoint.hookName? = some name ∧ other.hookName? = some name := by
  obtain ⟨⟨options, hquery⟩, ⟨⟨options', hother⟩, hname⟩ | ⟨⟨options', hother⟩, hname⟩⟩ := h
  · refine ⟨"useInfinite" ++ Text.pascalCase other.name, ?_, ?_⟩
    · simp [hookName?, hquery, Hook.stem?, hname, ← String.append_assoc]
    · simp [hookName?, hother, Hook.stem?]
  · refine ⟨"useMutate" ++ Text.pascalCase other.name, ?_, ?_⟩
    · simp [hookName?, hquery, Hook.stem?, hname, ← String.append_assoc]
    · simp [hookName?, hother, Hook.stem?]

theorem Shadows.ne {endpoint other : EndpointSpec} (h : endpoint.Shadows other) :
    endpoint ≠ other := by
  rintro rfl
  obtain ⟨⟨options, hquery⟩, ⟨⟨options', hother⟩, -⟩ | ⟨⟨options', hother⟩, -⟩⟩ := h
  · rw [hquery] at hother
    cases hother
  · rw [hquery] at hother
    cases hother

/-- Endpoints with Pascal cases of their own have one hook name only if one shadows the other. -/
theorem shadows_of_hookName?_eq {endpoint other : EndpointSpec} {name : String}
    (hpascal : Text.pascalCase endpoint.name ≠ Text.pascalCase other.name)
    (h : endpoint.hookName? = some name) (h' : other.hookName? = some name) :
    endpoint.Shadows other ∨ other.Shadows endpoint := by
  obtain ⟨hook, stem, hhook, hstem, rfl⟩ := hookName?_eq_some_iff.1 h
  obtain ⟨hook', stem', hhook', hstem', hname⟩ := hookName?_eq_some_iff.1 h'
  have hinfinite : ∀ pascal : String, "useInfinite" ++ pascal = "use" ++ ("Infinite" ++ pascal) :=
    fun pascal => by rw [← String.append_assoc]; rfl
  have hmutate : ∀ pascal : String, "useMutate" ++ pascal = "use" ++ ("Mutate" ++ pascal) :=
    fun pascal => by rw [← String.append_assoc]; rfl
  have hapart : ∀ pascal pascal' : String, "useInfinite" ++ pascal ≠ "useMutate" ++ pascal' := by
    intro pascal pascal' heq
    have hletter := congrArg (fun name => name.toList.drop 3 |>.head?) heq
    simp at hletter
  -- Of the nine pairs of kinds, equal kinds give equal Pascal cases, and a paginated query and a
  -- mutation part at the letter after `use`.
  cases hook with
  | none => cases hstem
  | query options =>
      obtain rfl := Option.some.inj hstem
      cases hook' with
      | none => cases hstem'
      | query options' =>
          obtain rfl := Option.some.inj hstem'
          exact absurd ((String.append_right_inj _).1 hname) hpascal
      | infinite options' =>
          obtain rfl := Option.some.inj hstem'
          rw [hinfinite, String.append_right_inj] at hname
          exact Or.inl ⟨⟨options, hhook⟩, Or.inl ⟨⟨options', hhook'⟩, hname⟩⟩
      | mutation options' =>
          obtain rfl := Option.some.inj hstem'
          rw [hmutate, String.append_right_inj] at hname
          exact Or.inl ⟨⟨options, hhook⟩, Or.inr ⟨⟨options', hhook'⟩, hname⟩⟩
  | infinite options =>
      obtain rfl := Option.some.inj hstem
      cases hook' with
      | none => cases hstem'
      | query options' =>
          obtain rfl := Option.some.inj hstem'
          rw [hinfinite, String.append_right_inj] at hname
          exact Or.inr ⟨⟨options', hhook'⟩, Or.inl ⟨⟨options, hhook⟩, hname.symm⟩⟩
      | infinite options' =>
          obtain rfl := Option.some.inj hstem'
          exact absurd ((String.append_right_inj _).1 hname) hpascal
      | mutation options' =>
          obtain rfl := Option.some.inj hstem'
          exact absurd hname (hapart _ _)
  | mutation options =>
      obtain rfl := Option.some.inj hstem
      cases hook' with
      | none => cases hstem'
      | query options' =>
          obtain rfl := Option.some.inj hstem'
          rw [hmutate, String.append_right_inj] at hname
          exact Or.inr ⟨⟨options', hhook'⟩, Or.inr ⟨⟨options, hhook⟩, hname.symm⟩⟩
      | infinite options' =>
          obtain rfl := Option.some.inj hstem'
          exact absurd hname.symm (hapart _ _)
      | mutation options' =>
          obtain rfl := Option.some.inj hstem'
          exact absurd ((String.append_right_inj _).1 hname) hpascal

end EndpointSpec

namespace ServiceSpec

/-- The hooks of one service have paths of their own unless one endpoint shadows another. -/
theorem nodup_hookPaths_iff {spec : ServiceSpec} (className : String)
    (hpascal : (spec.endpoints.map fun endpoint => Text.pascalCase endpoint.name).Nodup) :
    (spec.hookPaths className).Nodup ↔
      ¬ ∃ endpoint ∈ spec.endpoints, ∃ other ∈ spec.endpoints, endpoint.Shadows other := by
  rw [hookPaths, List.nodup_map_iff (hookPath_injective className), List.Nodup,
    List.pairwise_filterMap]
  constructor
  · rintro hpairs ⟨endpoint, hmem, other, hother, hshadows⟩
    obtain ⟨name, hname, hname'⟩ := hshadows.hookName?_eq
    have hsymm : Std.Symm fun a b : EndpointSpec => ∀ name, a.hookName? = some name →
        ∀ name', b.hookName? = some name' → name ≠ name' :=
      ⟨fun a b hab name hname name' hname' => (hab name' hname' name hname).symm⟩
    exact hpairs.forall hmem hother hshadows.ne name hname name hname' rfl
  · intro hclear
    rw [List.Nodup, List.pairwise_map] at hpascal
    refine hpascal.imp_of_mem ?_
    rintro endpoint other hmem hother hne name hname name' hname' rfl
    rcases EndpointSpec.shadows_of_hookName?_eq hne hname hname' with hshadows | hshadows
    · exact hclear ⟨endpoint, hmem, other, hother, hshadows⟩
    · exact hclear ⟨other, hother, endpoint, hmem, hshadows⟩

@[simp] theorem mem_hookPaths {spec : ServiceSpec} {className path : String} :
    path ∈ spec.hookPaths className ↔
      ∃ endpoint ∈ spec.endpoints, ∃ name, endpoint.hookName? = some name ∧
        path = hookPath className name := by
  simp only [hookPaths, List.mem_map, List.mem_filterMap]
  constructor
  · rintro ⟨name, ⟨endpoint, hmem, hname⟩, rfl⟩
    exact ⟨endpoint, hmem, name, hname, rfl⟩
  · rintro ⟨endpoint, hmem, name, hname, rfl⟩
    exact ⟨name, ⟨endpoint, hmem, hname⟩, rfl⟩

theorem modulePath_not_mem_hookPaths (spec : ServiceSpec) (className key : String) :
    modulePath (ServiceIdent.ofKey key).className ∉ spec.hookPaths className := by
  intro hmem
  obtain ⟨endpoint, -, name, -, heq⟩ := mem_hookPaths.1 hmem
  exact hookPath_ne_modulePath className name key heq.symm

end ServiceSpec

/-- A hook of one service gets into the directory of another: the class of the inner service goes on
behind that of the outer one with a `/`, and the name of the outer hook supplies the rest. -/
def Nests (outer inner : String × ServiceSpec) : Prop :=
  ∃ endpoint ∈ outer.2.endpoints, ∃ other ∈ inner.2.endpoints, ∃ middle name : String,
    endpoint.hookName? = some (middle ++ "/" ++ name) ∧ other.hookName? = some name ∧
      (ServiceIdent.ofKey inner.1).className =
        (ServiceIdent.ofKey outer.1).className ++ "/" ++ middle

theorem Nests.className_ne {outer inner : String × ServiceSpec} (h : Nests outer inner) :
    (ServiceIdent.ofKey outer.1).className ≠ (ServiceIdent.ofKey inner.1).className := by
  obtain ⟨-, -, -, -, middle, -, -, -, hclass⟩ := h
  intro hsame
  have hlength := congrArg String.length (hsame.trans hclass)
  simp only [String.length_append] at hlength
  have hslash : "/".length = 1 := rfl
  omega

/-- Where two texts with a `/` inside are the same, either the `/` is the same or one lies inside
the other part. -/
theorem split_at_slash {front back front' back' : String} (hne : front ≠ front')
    (h : front ++ "/" ++ back = front' ++ "/" ++ back') :
    (∃ middle, front' = front ++ "/" ++ middle ∧ back = middle ++ "/" ++ back') ∨
      ∃ middle, front = front' ++ "/" ++ middle ∧ back' = middle ++ "/" ++ back := by
  have hchars : front.toList ++ '/' :: back.toList = front'.toList ++ '/' :: back'.toList := by
    simpa using congrArg String.toList h
  have hstep : ∀ {p q p' q' : String} {cs : List Char}, p ≠ p' → p'.toList = p.toList ++ cs →
      '/' :: q.toList = cs ++ '/' :: q'.toList →
      ∃ middle, p' = p ++ "/" ++ middle ∧ q = middle ++ "/" ++ q' := by
    intro p q p' q' cs hpne hp hq
    cases cs with
    | nil => exact absurd (String.toList_inj.1 (by simpa using hp.symm)) hpne
    | cons c cs =>
        obtain ⟨rfl, hrest⟩ := List.cons.inj hq
        refine ⟨String.ofList cs, ?_, ?_⟩
        · rw [← String.toList_inj, hp]
          simp
        · rw [← String.toList_inj, hrest]
          simp
  rcases List.append_eq_append_iff.1 hchars with ⟨cs, hfront, hback⟩ | ⟨cs, hfront, hback⟩
  · exact Or.inl (hstep hne hfront hback)
  · exact Or.inr (hstep hne.symm hfront hback)

/-- Services with classes of their own have no file in common unless one nests in the other. -/
theorem disjoint_generatedPaths_iff {first second : String × ServiceSpec}
    (hne : (ServiceIdent.ofKey first.1).className ≠ (ServiceIdent.ofKey second.1).className) :
    (first.2.generatedPaths first.1).Disjoint (second.2.generatedPaths second.1) ↔
      ¬ (Nests first second ∨ Nests second first) := by
  have hnested : ∀ {outer inner : String × ServiceSpec}, Nests outer inner →
      ∃ path, path ∈ outer.2.generatedPaths outer.1 ∧ path ∈ inner.2.generatedPaths inner.1 := by
    rintro outer inner ⟨endpoint, hmem, other, hother, middle, name, hname, hname', hclass⟩
    refine ⟨hookPath (ServiceIdent.ofKey inner.1).className name, ?_, ?_⟩
    · refine List.mem_cons_of_mem _ (ServiceSpec.mem_hookPaths.2 ⟨endpoint, hmem, _, hname, ?_⟩)
      rw [hookPath_eq_iff, hclass]
      simp only [String.append_assoc]
    · exact List.mem_cons_of_mem _ (ServiceSpec.mem_hookPaths.2 ⟨other, hother, name, hname', rfl⟩)
  constructor
  · rintro hdisjoint (hnests | hnests)
    · obtain ⟨path, hmem, hmem'⟩ := hnested hnests
      exact hdisjoint hmem hmem'
    · obtain ⟨path, hmem, hmem'⟩ := hnested hnests
      exact hdisjoint hmem' hmem
  · intro hclear path hmem hmem'
    rcases List.mem_cons.1 hmem with rfl | hhook
    · rcases List.mem_cons.1 hmem' with hmodule | hhook'
      · exact hne (modulePath_injective hmodule)
      · exact ServiceSpec.modulePath_not_mem_hookPaths _ _ _ hhook'
    · rcases List.mem_cons.1 hmem' with rfl | hhook'
      · exact ServiceSpec.modulePath_not_mem_hookPaths _ _ _ hhook
      · obtain ⟨endpoint, hendpoint, name, hname, rfl⟩ := ServiceSpec.mem_hookPaths.1 hhook
        obtain ⟨other, hother, name', hname', heq⟩ := ServiceSpec.mem_hookPaths.1 hhook'
        rcases split_at_slash hne (hookPath_eq_iff.1 heq) with
          ⟨middle, hclass, rfl⟩ | ⟨middle, hclass, rfl⟩
        · exact hclear (Or.inl
            ⟨endpoint, hendpoint, other, hother, middle, name', hname, hname', hclass⟩)
        · exact hclear (Or.inr
            ⟨other, hother, endpoint, hendpoint, middle, name, hname', hname, hclass⟩)

namespace ApiConfig

/-- Two hooks of a configuration come to one path: an endpoint shadows another one of its service, or
a hook of one service gets into the directory of another service. -/
def HookClash (config : ApiConfig) : Prop :=
  (∃ entry ∈ config.services.entries, ∃ endpoint ∈ entry.2.endpoints,
    ∃ other ∈ entry.2.endpoints, endpoint.Shadows other) ∨
  ∃ outer ∈ config.services.entries, ∃ inner ∈ config.services.entries, Nests outer inner

theorem httpClientPath_not_mem (config : ApiConfig) :
    Client.httpClientPath ∉ config.services.entries.flatMap
      fun entry => entry.2.generatedPaths entry.1 := by
  intro hmem
  obtain ⟨entry, -, hpath⟩ := List.mem_flatMap.1 hmem
  rcases List.mem_cons.1 hpath with hmodule | hhook
  · exact httpClientPath_ne_modulePath entry.1 hmodule
  · obtain ⟨endpoint, -, name, -, heq⟩ := ServiceSpec.mem_hookPaths.1 hhook
    exact httpClientPath_ne_hookPath _ _ heq

theorem nodup_generatedPaths_iff {config : ApiConfig}
    (hclass : (config.services.keys.map fun key => (ServiceIdent.ofKey key).className).Nodup)
    (hpascal : ∀ entry ∈ config.services.entries,
      (entry.2.endpoints.map fun endpoint => Text.pascalCase endpoint.name).Nodup) :
    config.generatedPaths.Nodup ↔ ¬ config.HookClash := by
  rw [generatedPaths, List.nodup_cons, List.nodup_flatMap]
  constructor
  · rintro ⟨-, hservices, hpairs⟩ (⟨entry, hmem, hshadows⟩ | ⟨outer, houter, inner, hinner, hnests⟩)
    · have hhooks := (List.nodup_cons.1 (hservices entry hmem)).2
      exact (ServiceSpec.nodup_hookPaths_iff _ (hpascal entry hmem)).1 hhooks hshadows
    · have hne : outer ≠ inner := by
        rintro rfl
        exact hnests.className_ne rfl
      have hsymm : Std.Symm (Function.onFun List.Disjoint
          fun entry : String × ServiceSpec => entry.2.generatedPaths entry.1) :=
        ⟨fun _ _ hdisjoint path hmem hmem' => hdisjoint hmem' hmem⟩
      have hdisjoint := hpairs.forall houter hinner hne
      exact (disjoint_generatedPaths_iff hnests.className_ne).1 hdisjoint (Or.inl hnests)
  · intro hclear
    refine ⟨config.httpClientPath_not_mem, ?_, ?_⟩
    · intro entry hmem
      refine List.nodup_cons.2 ⟨ServiceSpec.modulePath_not_mem_hookPaths _ _ _, ?_⟩
      rw [ServiceSpec.nodup_hookPaths_iff _ (hpascal entry hmem)]
      exact fun hshadows => hclear (Or.inl ⟨entry, hmem, hshadows⟩)
    · rw [OrderedMap.keys, Entries.keys, List.map_map, List.Nodup, List.pairwise_map] at hclass
      refine hclass.imp_of_mem ?_
      intro first second hfirst hsecond hne
      refine (disjoint_generatedPaths_iff hne).2 ?_
      rintro (hnests | hnests)
      · exact hclear (Or.inr ⟨first, hfirst, second, hsecond, hnests⟩)
      · exact hclear (Or.inr ⟨second, hsecond, first, hfirst, hnests⟩)

end ApiConfig

/-! ## Files that a draft reports as repeated -/

namespace OutputDraft

theorem outputFault?_ne_repeated (path : String) : Path.outputFault? path ≠ some .repeated := by
  rw [Path.outputFault?]
  split
  · simp
  · split
    · simp
    · intro h
      obtain ⟨component, -, hfault⟩ := List.exists_of_findSome?_eq_some h
      cases component <;> simp [Path.Component.fault?] at hfault

/-- What one file adds to a draft. -/
theorem addFile_cases (draft : OutputDraft) (file : GeneratedFile) :
    (∃ fault, Path.outputFault? file.path = some fault ∧ fault ≠ .repeated ∧
      draft.addFile file =
        { draft with faults := draft.faults ++ [.invalidPath file.path fault] }) ∨
    (Path.outputFault? file.path = none ∧ file.path ∈ draft.files.map GeneratedFile.path ∧
      draft.addFile file =
        { draft with faults := draft.faults ++ [.invalidPath file.path .repeated] }) ∨
    (Path.outputFault? file.path = none ∧ file.path ∉ draft.files.map GeneratedFile.path ∧
      draft.addFile file = { draft with files := draft.files ++ [file] }) := by
  cases hfault : Path.outputFault? file.path with
  | some fault =>
      refine Or.inl ⟨fault, rfl, ?_, by simp [addFile, fault?, hfault]⟩
      rintro rfl
      exact outputFault?_ne_repeated file.path hfault
  | none =>
      have hany : (draft.files.any (·.path == file.path)) = true ↔
          file.path ∈ draft.files.map GeneratedFile.path := by
        simp
      by_cases hmem : file.path ∈ draft.files.map GeneratedFile.path
      · refine Or.inr (Or.inl ⟨rfl, hmem, ?_⟩)
        rw [addFile, fault?, hfault, hany.2 hmem]
        rfl
      · refine Or.inr (Or.inr ⟨rfl, hmem, ?_⟩)
        rw [addFile, fault?, hfault, Bool.eq_false_iff.2 (fun h => hmem (hany.1 h))]
        rfl

/-- The repeated paths of a draft after more files: those it had, and the sound paths that some file
brings a second time. -/
theorem repeated_mem_addFiles_iff (draft : OutputDraft) (files : List GeneratedFile)
    (path : String) :
    OutputError.invalidPath path .repeated ∈ (draft.addFiles files).faults ↔
      OutputError.invalidPath path .repeated ∈ draft.faults ∨
        Path.outputFault? path = none ∧
          (path ∈ draft.files.map GeneratedFile.path ∧ path ∈ files.map GeneratedFile.path ∨
            List.Duplicate path (files.map GeneratedFile.path)) := by
  induction files generalizing draft with
  | nil => simp [addFiles]
  | cons file files ih =>
      have hcons : draft.addFiles (file :: files) = (draft.addFile file).addFiles files := rfl
      rw [hcons, ih, List.map_cons, List.duplicate_cons_iff, List.mem_cons]
      rcases draft.addFile_cases file with
        ⟨fault, hfault, hne, hadd⟩ | ⟨hfault, hmem, hadd⟩ | ⟨hfault, hmem, hadd⟩
      · rw [hadd]
        simp only [List.mem_append, List.mem_singleton, OutputError.invalidPath.injEq]
        grind
      · rw [hadd]
        simp only [List.mem_append, List.mem_singleton, OutputError.invalidPath.injEq]
        grind
      · rw [hadd]
        simp only [List.map_append, List.map_cons, List.map_nil, List.mem_append,
          List.mem_singleton]
        grind

end OutputDraft

/-! ## Builds -/

namespace Client

/-- The checks that every service of a build has passed. -/
theorem nodup_of_servicesFiles {services : List (String × ServiceSpec)}
    {files : List GeneratedFile} (h : servicesFiles services = .ok files) :
    ∀ entry ∈ services,
      (entry.2.endpoints.map fun endpoint => Text.pascalCase endpoint.name).Nodup := by
  induction services generalizing files with
  | nil => simp
  | cons first services ih =>
      obtain ⟨name, spec⟩ := first
      obtain ⟨own, hown, h⟩ := bind_eq_ok.1 h
      obtain ⟨others, hothers, h⟩ := bind_eq_ok.1 h
      obtain ⟨service, hservice, -⟩ := bind_eq_ok.1 (mapError_eq_ok.1 hown)
      obtain ⟨-, hnames, -, -⟩ := ServiceModule.compile_ok hservice
      intro entry hentry
      rcases List.mem_cons.1 hentry with rfl | hrest
      · have hseen : (Entries.keys ([] : Entries String)).Nodup := List.nodup_nil
        exact ServiceModule.nodup_of_checkNames hseen hnames
      · exact ih hothers entry hrest

/-- The files of a build have paths of their own exactly when no two of its hooks clash.  Then no
path is reported as repeated when the files are put in a draft; in general those sound paths are
that two files have. -/
theorem nodup_paths_iff (config : ApiConfig) (files : List GeneratedFile)
    (h : generate config = .ok files) :
    ((files.map GeneratedFile.path).Nodup ↔ ¬ config.HookClash) ∧
    (¬ config.HookClash → ∀ root path : String,
      OutputError.invalidPath path .repeated ∉ (OutputDraft.addFiles { root } files).faults) ∧
    ∀ root path : String,
      OutputError.invalidPath path .repeated ∈ (OutputDraft.addFiles { root } files).faults ↔
        List.Duplicate path (files.map GeneratedFile.path) ∧ Path.outputFault? path = none := by
  obtain ⟨hnames, shared, others, -, hothers, -⟩ := generate_ok h
  have hdistinct : (files.map GeneratedFile.path).Nodup ↔ ¬ config.HookClash := by
    have hseen : (Entries.keys ([] : Entries String)).Nodup := List.nodup_nil
    rw [map_path_generate h]
    exact ApiConfig.nodup_generatedPaths_iff
      (nodup_of_checkServiceNames hseen hnames) (nodup_of_servicesFiles hothers)
  have hrepeated : ∀ root path : String,
      OutputError.invalidPath path .repeated ∈ (OutputDraft.addFiles { root } files).faults ↔
        List.Duplicate path (files.map GeneratedFile.path) ∧ Path.outputFault? path = none := by
    intro root path
    rw [OutputDraft.repeated_mem_addFiles_iff]
    simp [and_comm]
  refine ⟨hdistinct, ?_, hrepeated⟩
  intro hclear root path hmem
  exact ((hrepeated root path).1 hmem).1.not_nodup (hdistinct.2 hclear)

/-- A service with the mutation `todo` and the query `mutateTodo`. -/
def shadowedTodo : ApiConfig :=
  { path := "out"
    services := ⟨[("todo",
      { baseUrl := "/"
        endpoints := [
          { method := .post, name := "todo", path := "/todo", useMutation := some (.enabled true) },
          { method := .get, name := "mutateTodo", path := "/all",
            useQuery := some (.enabled true) }] })]⟩ }

theorem generate_shadowedTodo : ∃ files, generate shadowedTodo = .ok files ∧
    files.map GeneratedFile.path =
      ["HttpClient.ts", "TodoService.ts", "queries/TodoService/useMutateTodo.ts",
        "queries/TodoService/useMutateTodo.ts"] := by
  have hpaths : (generate shadowedTodo).toOption.map (·.map GeneratedFile.path) =
      some ["HttpClient.ts", "TodoService.ts", "queries/TodoService/useMutateTodo.ts",
        "queries/TodoService/useMutateTodo.ts"] := by
    decide +kernel
  obtain ⟨files, hfiles, hmap⟩ := Option.map_eq_some_iff.1 hpaths
  refine ⟨files, ?_, hmap⟩
  cases hgenerate : generate shadowedTodo with
  | error e => simp [hgenerate, Except.toOption] at hfiles
  | ok found =>
      rw [hgenerate] at hfiles
      rw [Option.some.inj hfiles]

/-- The build succeeds and gives one path twice, which a draft reports. -/
theorem generate_repeats_path :
    ¬ ∀ (config : ApiConfig) (files : List GeneratedFile), generate config = .ok files →
      (files.map GeneratedFile.path).Nodup ∧ ∀ root path : String,
        OutputError.invalidPath path .repeated ∉
          (OutputDraft.addFiles { root } files).faults := by
  intro hall
  obtain ⟨files, hfiles, hpaths⟩ := generate_shadowedTodo
  have hnodup := (hall shadowedTodo files hfiles).1
  rw [hpaths] at hnodup
  exact absurd hnodup (by decide)

theorem nodup_paths_iff_shadowedTodo : ∃ files, generate shadowedTodo = .ok files ∧
    ¬ (files.map GeneratedFile.path).Nodup ∧ shadowedTodo.HookClash ∧
    OutputError.invalidPath "queries/TodoService/useMutateTodo.ts" .repeated ∈
      (OutputDraft.addFiles { root := "out" } files).faults := by
  obtain ⟨files, hfiles, hpaths⟩ := generate_shadowedTodo
  obtain ⟨hdistinct, -, hrepeated⟩ := nodup_paths_iff shadowedTodo files hfiles
  have hnot : ¬ (files.map GeneratedFile.path).Nodup := by
    rw [hpaths]
    decide
  refine ⟨files, hfiles, hnot, ?_, ?_⟩
  · exact not_not.1 fun hclear => hnot (hdistinct.2 hclear)
  · refine (hrepeated _ _).2 ⟨?_, by decide +kernel⟩
    rw [hpaths, List.duplicate_iff_two_le_count]
    decide

end Client

end ClientLoom
