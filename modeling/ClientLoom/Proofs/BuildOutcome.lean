import ClientLoom.Proofs.DistinctPaths
import ClientLoom.Proofs.FileText

/-!
# The outcome of a build

A build fails if two services have the same class, or else if a service cannot be compiled; the
first such service in the order of the configuration gives the error.  Otherwise its files are the
shared client and then those of the services, each with its module in front of its hooks.  It makes
no difference whether the services behind a failure are compiled at all.  The main statement is
`Client.generate_outcome`.
-/

namespace ClientLoom

/-- The files of a compiled service: the module, then the hooks in the order of their endpoints. -/
def ServiceModule.generated (service : ServiceModule) : List GeneratedFile :=
  ⟨modulePath service.ident.className, service.text⟩ ::
    service.hooks.map fun plan => ⟨plan.path, plan.text⟩

namespace Client

/-! ## Classes of services -/

/-- The class of the service with a key. -/
def classOf (key : String) : String :=
  (ServiceIdent.ofKey key).className

/-- The error of two services with the same class. -/
def clashError (first second : String) : Error :=
  .validation "services"
    ("services '" ++ first ++ "' and '" ++ second ++ "' both generate '" ++ classOf second ++ "'")

/-- `second` is the first key whose class a key in front of it has, and `first` is that key. -/
def ClashesFirst (keys : List String) (first second : String) : Prop :=
  ∃ front back, keys = front ++ second :: back ∧ (front.map classOf).Nodup ∧ first ∈ front ∧
    classOf first = classOf second

theorem ClashesFirst.not_nodup {keys : List String} {first second : String}
    (h : ClashesFirst keys first second) : ¬ (keys.map classOf).Nodup := by
  obtain ⟨front, back, rfl, -, hfirst, hclass⟩ := h
  rw [List.map_append, List.map_cons]
  intro hnodup
  have hmem : classOf second ∈ front.map classOf := hclass ▸ List.mem_map_of_mem hfirst
  exact (List.nodup_append.1 hnodup).2.2 _ hmem _ List.mem_cons_self rfl

/-- What the check has seen behind keys. -/
def seenClasses (keys : List String) : Entries String :=
  keys.map fun key => (classOf key, key)

theorem checkServiceNames_known {seen : Entries String} {key first : String}
    (h : seen.get? (classOf key) = some first) (keys : List String) :
    checkServiceNames seen (key :: keys) = .error (clashError first key) := by
  rw [classOf] at h
  simp only [checkServiceNames, h]
  rfl

theorem checkServiceNames_new {seen : Entries String} {key : String}
    (h : seen.get? (classOf key) = none) (keys : List String) :
    checkServiceNames seen (key :: keys) =
      checkServiceNames (seen ++ [(classOf key, key)]) keys := by
  rw [classOf] at h
  simp only [checkServiceNames, h]
  rfl

@[simp] theorem seenClasses_snoc (keys : List String) (key : String) :
    seenClasses (keys ++ [key]) = seenClasses keys ++ [(classOf key, key)] :=
  List.map_append

@[simp] theorem keys_seenClasses (keys : List String) :
    (seenClasses keys).keys = keys.map classOf := by
  simp [seenClasses, Entries.keys]

/-- The check passes if all classes are distinct, and else it reports the first key that clashes. -/
theorem checkServiceNames_cases {earlier : List String} (hearlier : (earlier.map classOf).Nodup)
    (keys : List String) :
    (((earlier ++ keys).map classOf).Nodup ∧
      checkServiceNames (seenClasses earlier) keys = .ok ()) ∨
    ∃ first second, ClashesFirst (earlier ++ keys) first second ∧
      checkServiceNames (seenClasses earlier) keys = .error (clashError first second) := by
  -- What the check has seen are the classes of the keys in front, and these are distinct.
  induction keys generalizing earlier with
  | nil => exact .inl ⟨by simpa using hearlier, rfl⟩
  | cons key keys ih =>
      cases hseen : (seenClasses earlier).get? (classOf key) with
      | some first =>
          have hmem := Entries.mem_of_get?_eq_some hseen
          obtain ⟨other, hother, hpair⟩ := List.mem_map.1 hmem
          obtain ⟨hclass, rfl⟩ := Prod.mk.inj hpair
          exact .inr ⟨other, key, ⟨earlier, keys, rfl, hearlier, hother, hclass⟩,
            checkServiceNames_known hseen keys⟩
      | none =>
          have hnew : classOf key ∉ earlier.map classOf := by
            rw [← keys_seenClasses]
            exact Entries.get?_eq_none_iff.1 hseen
          have hsnoc : ((earlier ++ [key]).map classOf).Nodup := by
            rw [List.map_append, List.map_singleton, ← List.concat_eq_append]
            exact hearlier.concat hnew
          have hrest := ih hsnoc
          rw [List.append_assoc, List.singleton_append, seenClasses_snoc] at hrest
          rw [checkServiceNames_new hseen]
          exact hrest

/-! ## Services -/

/-- The service of an entry of the configuration.  A failure is reported with its key. -/
def compileEntry (entry : String × ServiceSpec) : Outcome ServiceModule :=
  Outcome.inService entry.1 (ServiceModule.compile entry.1 entry.2)

/-- Rendering never fails, so a service has files if it can be compiled. -/
theorem serviceFiles_eq (name : String) (spec : ServiceSpec) :
    serviceFiles name spec = ServiceModule.generated <$> ServiceModule.compile name spec := by
  rw [serviceFiles]
  cases ServiceModule.compile name spec with
  | error e => rfl
  | ok service => exact service.files_eq

/-- The services behind the first failure do not count. -/
theorem gather_compileInOrder (services : List (String × ServiceSpec)) :
    gather (compileInOrder services) = gather (compileEach services) := by
  induction services with
  | nil => rfl
  | cons entry services ih =>
      obtain ⟨name, spec⟩ := entry
      have heach : compileEach ((name, spec) :: services) =
          (name, serviceFiles name spec) :: compileEach services := rfl
      rw [heach, compileInOrder]
      cases serviceFiles name spec with
      | error e =>
          -- The scan stops here too, so it never sees the other results.
          rfl
      | ok files => simp only [gather, ih]

/-- The files of the entries, one after the other. -/
theorem gather_compileEach (services : List (String × ServiceSpec)) :
    gather (compileEach services) =
      (fun modules => modules.flatMap ServiceModule.generated) <$>
        services.mapM compileEntry := by
  induction services with
  | nil => rfl
  | cons entry services ih =>
      obtain ⟨name, spec⟩ := entry
      have heach : compileEach ((name, spec) :: services) =
          (name, serviceFiles name spec) :: compileEach services := rfl
      rw [heach, gather, ih, serviceFiles_eq, List.mapM_cons, compileEntry]
      cases ServiceModule.compile name spec with
      | error e => rfl
      | ok service =>
          cases services.mapM compileEntry with
          | error e => rfl
          | ok modules => rfl

/-! ## Builds -/

/-- The text of the client that the services share. -/
def httpClientText : String :=
  String.join (Template.httpClientLines.map (· ++ "\n"))

theorem httpClient_eq : httpClient = .ok ⟨httpClientPath, httpClientText⟩ := by
  have hrender : Template.Library.builtin.render "http-client" (.object []) =
      .ok httpClientText := by
    have htemplate : Template.Library.builtin.render "http-client" (.object []) =
        Template.render { root := .object [] } Template.httpClient := by
      simp [Template.Library.render, Template.Library.builtin, Entries.get?]
    rw [htemplate]
    exact Template.render_last _ _
  rw [httpClient, hrender]
  rfl

/-- The first service in order that cannot be compiled gives this error, with its key. -/
def FailsInOrder (services : List (String × ServiceSpec)) (e : Error) : Prop :=
  ∃ front name spec back cause, services = front ++ (name, spec) :: back ∧
    (∀ entry ∈ front, ∃ files, serviceFiles entry.1 entry.2 = .ok files) ∧
    serviceFiles name spec = .error cause ∧ e = .inService name cause

theorem exists_serviceFiles_iff {entry : String × ServiceSpec} :
    (∃ files, serviceFiles entry.1 entry.2 = .ok files) ↔
      ∃ service, compileEntry entry = .ok service := by
  constructor
  · rintro ⟨files, hfiles⟩
    rw [serviceFiles_eq] at hfiles
    obtain ⟨service, hservice, -⟩ := map_eq_ok.1 hfiles
    exact ⟨service, mapError_eq_ok.2 hservice⟩
  · rintro ⟨service, hservice⟩
    refine ⟨service.generated, ?_⟩
    rw [serviceFiles_eq]
    exact map_eq_ok.2 ⟨service, mapError_eq_ok.1 hservice, rfl⟩

/-- What comes of a configuration: files, the first failure of a service, or a clash of classes. -/
theorem generate_cases (config : ApiConfig) :
    ((config.services.keys.map classOf).Nodup ∧ ∃ modules,
      config.services.entries.mapM compileEntry = .ok modules ∧
      generate config = .ok (⟨httpClientPath, httpClientText⟩ ::
        modules.flatMap ServiceModule.generated)) ∨
    ((config.services.keys.map classOf).Nodup ∧ ∃ e,
      FailsFirst compileEntry config.services.entries e ∧ generate config = .error e) ∨
    ∃ first second, ClashesFirst config.services.keys first second ∧
      generate config = .error (clashError first second) := by
  have hgenerate : generate config = checkServiceNames [] config.services.keys >>= fun _ =>
      gather (compileEach config.services.entries) >>= fun files =>
        .ok (⟨httpClientPath, httpClientText⟩ :: files) := by
    rw [generate, generateBy, httpClient_eq]
    rfl
  have hnone : (([] : List String).map classOf).Nodup := List.nodup_nil
  have hstart : seenClasses [] = [] := rfl
  rcases checkServiceNames_cases hnone config.services.keys with
    ⟨hnodup, hcheck⟩ | ⟨first, second, hclash, hcheck⟩
  · rw [hstart] at hcheck
    rw [hcheck, gather_compileEach] at hgenerate
    cases hmodules : config.services.entries.mapM compileEntry with
    | ok modules =>
        rw [hmodules] at hgenerate
        exact .inl ⟨hnodup, modules, rfl, hgenerate⟩
    | error e =>
        rw [hmodules] at hgenerate
        exact .inr (.inl ⟨hnodup, e, failsFirst_of_mapM hmodules, hgenerate⟩)
  · rw [hstart] at hcheck
    rw [hcheck] at hgenerate
    exact .inr (.inr ⟨first, second, hclash, hgenerate⟩)

theorem exists_generate_iff (config : ApiConfig) :
    (∃ files, generate config = .ok files) ↔
      (config.services.keys.map classOf).Nodup ∧
        ∀ entry ∈ config.services.entries, ∃ files, serviceFiles entry.1 entry.2 = .ok files := by
  simp only [exists_serviceFiles_iff]
  rcases generate_cases config with
    ⟨hnodup, modules, hmodules, hgenerate⟩ | ⟨-, e, hfails, hgenerate⟩ |
      ⟨first, second, hclash, hgenerate⟩
  · rw [hgenerate]
    exact ⟨fun _ => ⟨hnodup, exists_mapM_eq_ok_iff.1 ⟨modules, hmodules⟩⟩, fun _ => ⟨_, rfl⟩⟩
  · rw [hgenerate]
    constructor
    · rintro ⟨files, hfiles⟩
      cases hfiles
    · exact fun hall => absurd hall.2 hfails.not_forall_ok
  · rw [hgenerate]
    constructor
    · rintro ⟨files, hfiles⟩
      cases hfiles
    · exact fun hall => absurd hall.1 hclash.not_nodup

theorem generate_eq_ok {config : ApiConfig} {files : List GeneratedFile}
    (h : generate config = .ok files) :
    ∃ modules,
      List.Forall₂ (fun entry service => ServiceModule.compile entry.1 entry.2 = .ok service)
        config.services.entries modules ∧
      files = ⟨httpClientPath, httpClientText⟩ :: modules.flatMap ServiceModule.generated := by
  rcases generate_cases config with
    ⟨-, modules, hmodules, hgenerate⟩ | ⟨-, e, -, hgenerate⟩ | ⟨first, second, -, hgenerate⟩
  · rw [hgenerate] at h
    refine ⟨modules, ?_, (Except.ok.inj h).symm⟩
    exact (forall₂_of_mapM hmodules).imp fun entry service => mapError_eq_ok.1
  · rw [hgenerate] at h
    cases h
  · rw [hgenerate] at h
    cases h

theorem generate_eq_error {config : ApiConfig} {e : Error} (h : generate config = .error e) :
    (∃ first second, ClashesFirst config.services.keys first second ∧
      e = clashError first second) ∨
    (config.services.keys.map classOf).Nodup ∧ FailsInOrder config.services.entries e := by
  rcases generate_cases config with
    ⟨-, modules, -, hgenerate⟩ | ⟨hnodup, e', hfails, hgenerate⟩ |
      ⟨first, second, hclash, hgenerate⟩
  · rw [hgenerate] at h
    cases h
  · rw [hgenerate] at h
    obtain rfl := Except.error.inj h
    obtain ⟨front, ⟨name, spec⟩, back, hsplit, hfront, hfailing⟩ := hfails
    obtain ⟨cause, hcause, rfl⟩ := mapError_eq_error.1 hfailing
    refine .inr ⟨hnodup, front, name, spec, back, cause, hsplit, fun entry hentry => ?_, ?_, rfl⟩
    · exact exists_serviceFiles_iff.2 (hfront entry hentry)
    · rw [serviceFiles_eq]
      exact map_eq_error.2 hcause
  · rw [hgenerate] at h
    exact .inl ⟨first, second, hclash, (Except.error.inj h).symm⟩

/-- A build succeeds exactly when all services have classes of their own and each of them can be
compiled.  Its files are then the shared client and those of the services in the order of the
configuration: of each its module, and its hooks in the order of the endpoints.  Otherwise the
first clash of classes is reported, or, if there is none, the first failure of a service with its
key.  It makes no difference whether the services behind a failure are compiled. -/
theorem generate_outcome (config : ApiConfig) :
    ((∃ files, generate config = .ok files) ↔
      (config.services.keys.map classOf).Nodup ∧
        ∀ entry ∈ config.services.entries, ∃ files, serviceFiles entry.1 entry.2 = .ok files) ∧
    (∀ files, generate config = .ok files →
      files.map GeneratedFile.path = config.generatedPaths ∧
      ∃ modules,
        List.Forall₂ (fun entry service => ServiceModule.compile entry.1 entry.2 = .ok service)
          config.services.entries modules ∧
        files = ⟨httpClientPath, httpClientText⟩ :: modules.flatMap ServiceModule.generated) ∧
    (∀ e, generate config = .error e →
      (∃ first second, ClashesFirst config.services.keys first second ∧
        e = clashError first second) ∨
      (config.services.keys.map classOf).Nodup ∧ FailsInOrder config.services.entries e) ∧
    generateBy compileInOrder config = generateBy compileEach config := by
  refine ⟨exists_generate_iff config, fun files hfiles => ?_, fun e => generate_eq_error, ?_⟩
  · exact ⟨map_path_generate hfiles, generate_eq_ok hfiles⟩
  · rw [generateBy, generateBy, gather_compileInOrder]

end Client

end ClientLoom
