import ClientLoom.Proofs.CacheHistory
import ClientLoom.Proofs.DistinctPaths
import ClientLoom.Proofs.FileText

/-!
# The types that a service mentions

Inference declares every object type in the type that it finds, with its fields, so declarations are
`Closed`: what one of them refers to by name is declared as well.  The names that requests and hooks
use are copied from these declarations, and no two declarations of a service have the same name.
The main statement is `ServiceModule.mentioned_types_declared`.
-/

namespace ClientLoom

/-! ## Object types in a type -/

namespace TypeNode

mutual

/-- The object types in a type, as declarations, the outer ones first. -/
def objects : TypeNode → List TypeDecl
  | .object name fields => ⟨name, .object name fields⟩ :: fieldObjects fields
  | .array element => objects element
  | .primitive _ | .any | .raw _ | .union _ => []

/-- The object types in the types of fields. -/
def fieldObjects : List (Field TypeNode) → List TypeDecl
  | [] => []
  | ⟨_, _, type⟩ :: rest => objects type ++ fieldObjects rest

end

@[simp] theorem mem_fieldObjects {fields : List (Field TypeNode)} {decl : TypeDecl} :
    decl ∈ fieldObjects fields ↔ ∃ field ∈ fields, decl ∈ field.type.objects := by
  induction fields with
  | nil => simp [fieldObjects]
  | cons field fields ih => simp [fieldObjects, ih]

mutual

theorem objects_subset (type : TypeNode) :
    ∀ decl ∈ type.objects, decl.type.objects ⊆ type.objects := by
  match type with
  | .primitive _ | .any | .raw _ | .union _ => simp [objects]
  | .array element =>
      rw [objects]
      exact objects_subset element
  | .object name fields =>
      intro decl hdecl
      rw [objects] at hdecl
      rcases List.mem_cons.1 hdecl with rfl | hdecl
      · exact List.Subset.refl _
      · rw [objects]
        exact List.subset_cons_of_subset _ (fieldObjects_subset fields decl hdecl)

theorem fieldObjects_subset (fields : List (Field TypeNode)) :
    ∀ decl ∈ fieldObjects fields, decl.type.objects ⊆ fieldObjects fields := by
  match fields with
  | [] => simp [fieldObjects]
  | ⟨_, _, type⟩ :: rest =>
      intro decl hdecl
      rw [fieldObjects] at hdecl ⊢
      rcases List.mem_append.1 hdecl with hdecl | hdecl
      · exact List.subset_append_of_subset_left _ (objects_subset type decl hdecl)
      · exact List.subset_append_of_subset_right _ (fieldObjects_subset rest decl hdecl)

end

end TypeNode

/-- Every object type in a declared type is declared as well, with the same fields. -/
def Closed (decls : List TypeDecl) : Prop :=
  ∀ decl ∈ decls, ∀ object ∈ decl.type.objects, object ∈ decls

theorem closed_objects (type : TypeNode) : Closed type.objects :=
  TypeNode.objects_subset type

theorem Closed.cons_objects (name : String) (type : TypeNode) :
    Closed (⟨name, type⟩ :: type.objects) := by
  intro decl hdecl object hobject
  rcases List.mem_cons.1 hdecl with rfl | hdecl
  · exact List.mem_cons_of_mem _ hobject
  · exact List.mem_cons_of_mem _ (closed_objects type decl hdecl object hobject)

theorem Closed.flatMap {α : Type} {parts : List α} {decls : α → List TypeDecl}
    (h : ∀ part ∈ parts, Closed (decls part)) : Closed (parts.flatMap decls) := by
  intro decl hdecl object hobject
  obtain ⟨part, hpart, hdecl⟩ := List.mem_flatMap.1 hdecl
  exact List.mem_flatMap.2 ⟨part, hpart, h part hpart decl hdecl object hobject⟩

/-! ## What inference returns -/

namespace Walk

/-- Whatever the registry, a result of the walk has the property. -/
def Returns {α : Type} (walk : Walk α) (post : α → Prop) : Prop :=
  ∀ (names : TypeNames) (result : α), (walk.run names).1 = .ok result → post result

variable {α β : Type}

theorem returns_true (walk : Walk α) : Returns walk fun _ => True :=
  fun _ _ _ => trivial

theorem returns_pure {post : α → Prop} {result : α} (h : post result) :
    Returns (pure result) post := by
  intro names result' hresult
  obtain rfl := Except.ok.inj hresult
  exact h

theorem Returns.bind {walk : Walk α} {next : α → Walk β} {post : α → Prop} {post' : β → Prop}
    (hwalk : Returns walk post) (hnext : ∀ result, post result → Returns (next result) post') :
    Returns (walk >>= next) post' := by
  intro names result' hresult'
  rw [run_bind] at hresult'
  cases houtcome : (walk.run names).1 with
  | error e =>
      rw [houtcome] at hresult'
      cases hresult'
  | ok result =>
      rw [houtcome] at hresult'
      exact hnext result (hwalk names result houtcome) _ result' hresult'

end Walk

open Walk (Returns returns_true returns_pure)

/-- A text that has a type is a string, or its type is the payload of its tag. -/
theorem Leaf.type_cases {leaf : Leaf} {field : String} {type : TypeNode}
    (h : leaf.type field = .ok type) :
    type = .primitive .string ∨ ∃ payload, leaf = .raw payload ∧ type = .raw payload := by
  cases leaf with
  | plain => exact .inl (Except.ok.inj h).symm
  | raw payload => exact .inr ⟨payload, rfl, (Except.ok.inj h).symm⟩
  | tagged kind =>
      obtain ⟨known, -, htype⟩ := bind_eq_ok.1 h
      exact .inl (Except.ok.inj htype).symm

theorem Leaf.objects_type {leaf : Leaf} {field : String} {type : TypeNode}
    (h : leaf.type field = .ok type) : type.objects = [] := by
  obtain rfl | ⟨payload, -, rfl⟩ := Leaf.type_cases h
  · rfl
  · rfl

@[simp] theorem TypeNode.objects_ofKinds (kinds : List Primitive) :
    (ofKinds kinds).objects = [] := by
  unfold ofKinds
  split
  · rfl
  · rfl

namespace Shape

mutual

/-- The walk over a shape declares the object types in the type of the shape. -/
theorem returns_declare (name field : String) (shape : Shape) :
    Returns (shape.declare name field) fun result => result.2 = result.1.objects := by
  match shape with
  | .null | .boolean | .number | .emptyArray =>
      rw [declare]
      exact returns_pure rfl
  | .primitives kinds =>
      rw [declare]
      exact returns_pure (TypeNode.objects_ofKinds kinds).symm
  | .text leaf =>
      rw [declare]
      have hleaf : Returns (liftExcept (leaf.type field)) fun type => type.objects = [] := by
        intro names type htype
        cases houtcome : leaf.type field with
        | error e =>
            rw [houtcome] at htype
            cases htype
        | ok type' =>
            rw [houtcome] at htype
            obtain rfl := Except.ok.inj htype
            exact Leaf.objects_type houtcome
      refine hleaf.bind fun type htype => returns_pure ?_
      exact htype.symm
  | .array element =>
      rw [declare]
      refine (returns_declare (name ++ "Item") (field ++ "[]") element).bind ?_
      rintro ⟨type, decls⟩ hdecls
      exact returns_pure hdecls
  | .object fields =>
      rw [declare]
      refine (returns_true _).bind fun name' _ => ?_
      refine (returns_declareFields name' field fields).bind ?_
      rintro ⟨types, decls⟩ hdecls
      exact returns_pure (congrArg (_ :: ·) hdecls)

/-- The walk over fields declares the object types in the types of the fields. -/
theorem returns_declareFields (name field : String) (fields : List (Field Shape)) :
    Returns (declareFields name field fields) fun result =>
      result.2 = TypeNode.fieldObjects result.1 := by
  match fields with
  | [] =>
      rw [declareFields]
      exact returns_pure rfl
  | ⟨key, optional, shape⟩ :: rest =>
      rw [declareFields]
      refine (returns_declare _ _ shape).bind ?_
      rintro ⟨type, decls⟩ hdecls
      refine (returns_declareFields name field rest).bind ?_
      rintro ⟨types, more⟩ hmore
      exact returns_pure (congrArg₂ (· ++ ·) hdecls hmore)

end

end Shape

/-- The root is declared under the name of the example, and the declarations are closed. -/
structure Inferred.Complete (inferred : Inferred) : Prop where
  root : ⟨inferred.name, inferred.root⟩ ∈ inferred.declarations
  closed : Closed inferred.declarations

theorem Inferred.returns_walk (sample : Json) (declared field : String) :
    Returns (Inferred.walk sample declared field) Inferred.Complete := by
  rw [Inferred.walk]
  refine (returns_true _).bind fun name _ => ?_
  split
  · refine (Shape.returns_declareFields name field _).bind ?_
    rintro ⟨types, decls⟩ hdecls
    refine returns_pure ⟨List.mem_cons_self, ?_⟩
    obtain rfl : decls = TypeNode.fieldObjects types := hdecls
    exact closed_objects (.object name types)
  · refine (Shape.returns_declare name field _).bind ?_
    rintro ⟨root, decls⟩ hdecls
    refine returns_pure ⟨List.mem_cons_self, ?_⟩
    obtain rfl : decls = root.objects := hdecls
    exact Closed.cons_objects name root

namespace EndpointTypes

/-- The types of the examples that an endpoint has. -/
def roles (types : EndpointTypes) : List Inferred :=
  types.params.toList ++ types.body.toList ++ types.response.toList

/-- The names of the types of the parameters, the body and the response. -/
def roleNames (types : EndpointTypes) : List String :=
  types.paramsName.toList ++ types.bodyName.toList ++ types.responseName.toList

theorem roleNames_eq (types : EndpointTypes) : types.roleNames = types.roles.map Inferred.name := by
  simp [roleNames, roles, paramsName, bodyName, responseName, Option.toList_map]

theorem returns_role (base suffix field : String) (sample : Option Json) :
    Returns (role base suffix field sample) fun inferred =>
      ∀ type ∈ inferred.toList, type.Complete := by
  cases sample with
  | none => exact returns_pure (by simp)
  | some sample =>
      rw [role, map_eq_pure_bind]
      refine (Inferred.returns_walk sample _ field).bind fun inferred hinferred => ?_
      exact returns_pure (by simpa using hinferred)

theorem returns_walk (endpoint : EndpointSpec) :
    Returns (walk endpoint) fun types => ∀ type ∈ types.roles, type.Complete := by
  rw [walk]
  refine (returns_role _ "Params" "params" endpoint.params).bind fun params hparams => ?_
  refine (returns_role _ "Body" "body" endpoint.body).bind fun body hbody => ?_
  refine (returns_role _ "Response" "response" endpoint.response).bind fun response hresponse => ?_
  refine returns_pure fun type htype => ?_
  rcases List.mem_append.1 htype with htype | htype
  · rcases List.mem_append.1 htype with htype | htype
    · exact hparams type htype
    · exact hbody type htype
  · exact hresponse type htype

variable {types : EndpointTypes}

theorem closed_declarations (h : ∀ type ∈ types.roles, type.Complete) :
    Closed types.declarations :=
  Closed.flatMap fun type htype => (h type htype).closed

theorem mem_declNames_of_roleNames (h : ∀ type ∈ types.roles, type.Complete) {name : String}
    (hname : name ∈ types.roleNames) : name ∈ declNames types.declarations := by
  rw [roleNames_eq] at hname
  obtain ⟨type, htype, rfl⟩ := List.mem_map.1 hname
  exact List.mem_map.2 ⟨_, List.mem_flatMap.2 ⟨type, htype, (h type htype).root⟩, rfl⟩

end EndpointTypes

/-! ## Requests and hooks -/

namespace Request

variable {endpoint : EndpointSpec} {types : EndpointTypes} {request : Request}

/-- A request takes the names of its types from the types of the endpoint. -/
theorem types_of_build (h : Request.build endpoint types = .ok request) :
    request.paramsType = types.paramsName ∧ request.bodyType = types.bodyName ∧
      request.responseType = types.responseName := by
  simp only [Request.build] at h
  split at h
  · cases h
  · obtain rfl := Except.ok.inj h
    exact ⟨rfl, rfl, rfl⟩

theorem typesUsed_subset (h : Request.build endpoint types = .ok request) :
    request.typesUsed ⊆ types.roleNames := by
  obtain ⟨hparams, hbody, -⟩ := types_of_build h
  rw [typesUsed, hparams, hbody]
  exact List.subset_append_left _ _

theorem mem_typeArguments (h : Request.build endpoint types = .ok request) {type : String}
    (htype : type ∈ request.typeArguments) :
    type ∈ types.roleNames ∨ type = "any" ∧ request.responseType = none := by
  obtain ⟨-, hbody, hresponse⟩ := types_of_build h
  rcases List.mem_cons.1 htype with rfl | htype
  · rw [hresponse]
    cases hname : types.responseName with
    | none => exact .inr ⟨rfl, rfl⟩
    | some name => exact .inl (by simp [EndpointTypes.roleNames, hname])
  · refine .inl ?_
    split at htype
    · rw [hbody] at htype
      simp only [EndpointTypes.roleNames, List.mem_append]
      exact .inl (.inr htype)
    · cases htype

end Request

/-- A hook imports from the module of its service, and no names but those of the types of the
request and of the instance. -/
theorem HookPlan.imports_of_build {context : HookContext} {endpoint : EndpointSpec}
    {plan? : Option HookPlan} (h : HookPlan.build context endpoint = .ok plan?) :
    ∀ plan ∈ plan?, plan.className = context.service.className ∧
      plan.serviceImports ⊆ context.request.typesUsed ++ [context.service.instanceName] := by
  obtain ⟨hook, -, hplan⟩ := bind_eq_ok.1 h
  cases hook with
  | none =>
      obtain rfl := Except.ok.inj hplan
      intro plan hnone
      cases hnone
  | query options | infinite options | mutation options =>
      obtain rfl := Except.ok.inj hplan
      intro plan hplan
      obtain rfl := Option.some.inj hplan
      exact ⟨rfl, List.filter_subset_self _⟩

/-! ## Services -/

namespace TypeCache

/-- A call for a name that is not cached infers its types and adds them. -/
theorem typesFor_new_ok {cache cache' : TypeCache} {endpoint : EndpointSpec}
    {types : EndpointTypes} (hnew : cache.cached.get? endpoint.name = none)
    (h : cache.typesFor endpoint = (.ok types, cache')) :
    ((EndpointTypes.walk endpoint).run cache.names).1 = .ok types ∧
      cache'.cached = cache.cached ++ [(endpoint.name, types)] := by
  cases hwalk : ((EndpointTypes.walk endpoint).run cache.names).1 with
  | error e =>
      rw [typesFor_failed hnew hwalk] at h
      cases h
  | ok inferred =>
      rw [typesFor_new hnew hwalk] at h
      cases h
      exact ⟨rfl, rfl⟩

/-- Endpoints with other names that are not cached stay so. -/
theorem get?_eq_none_of_typesFor {cache cache' : TypeCache} {endpoint : EndpointSpec}
    {endpoints : List EndpointSpec} {types : EndpointTypes}
    (hnew : ∀ other ∈ endpoint :: endpoints, cache.cached.get? other.name = none)
    (hname : endpoint.name ∉ endpoints.map EndpointSpec.name)
    (h : cache.typesFor endpoint = (.ok types, cache')) :
    ∀ other ∈ endpoints, cache'.cached.get? other.name = none := by
  obtain ⟨-, hcached⟩ := typesFor_new_ok (hnew endpoint List.mem_cons_self) h
  intro other hother
  have hne : endpoint.name ≠ other.name := fun heq => hname (heq ▸ List.mem_map_of_mem hother)
  rw [hcached, Entries.get?_snoc, hnew other (List.mem_cons_of_mem endpoint hother), if_neg hne]
  rfl

end TypeCache

namespace ServiceModule

/-- A compiled endpoint mentions only the names of its own types, which are declared with all that
they refer to. -/
structure Sound (ident : ServiceIdent) (compiled : CompiledEndpoint) : Prop where
  complete : ∀ type ∈ compiled.types.roles, type.Complete
  request : ∃ endpoint, Request.build endpoint compiled.types = .ok compiled.request
  imports : ∀ plan ∈ compiled.hook, plan.className = ident.className ∧
    plan.serviceImports ⊆ compiled.request.typesUsed ++ [ident.instanceName]

/-- The declarations of endpoints with names of their own, compiled one after the other, have names
of their own, also beside those that were cached before. -/
theorem compileEndpoints_declared {ident : ServiceIdent} {cache : TypeCache}
    {endpoints : List EndpointSpec} {compiled : List CompiledEndpoint} (hcache : cache.Coherent)
    (hnew : ∀ endpoint ∈ endpoints, cache.cached.get? endpoint.name = none)
    (hnames : (endpoints.map EndpointSpec.name).Nodup)
    (h : compileEndpoints ident cache endpoints = .ok compiled) :
    (cache.declaredNames ++
        declNames (compiled.flatMap fun endpoint => endpoint.types.declarations)).Nodup ∧
      ∀ endpoint ∈ compiled, Sound ident endpoint := by
  induction endpoints generalizing cache compiled with
  | nil =>
      obtain rfl := Except.ok.inj h
      refine ⟨?_, by simp⟩
      simpa using hcache.perm.nodup_iff.1 hcache.nodup
  | cons endpoint endpoints ih =>
      obtain ⟨first, cache', others, hfirst, hothers, rfl⟩ := compileEndpoints_cons_ok h
      obtain ⟨htypes, hrequest, hhook⟩ := compileEndpoint_ok hfirst
      obtain ⟨hwalk, hcached⟩ :=
        TypeCache.typesFor_new_ok (hnew endpoint List.mem_cons_self) htypes
      obtain ⟨hname, hrest⟩ := List.nodup_cons.1 hnames
      have hcache' : cache'.Coherent := by
        have hnext := hcache.typesFor endpoint
        rwa [htypes] at hnext
      have hnew' := TypeCache.get?_eq_none_of_typesFor hnew hname htypes
      obtain ⟨hnodup, hsound⟩ := ih hcache' hnew' hrest hothers
      refine ⟨?_, ?_⟩
      · rw [TypeCache.declaredNames, hcached, List.flatMap_append, List.flatMap_singleton,
          List.append_assoc, ← TypeCache.declaredNames, ← declNames_append] at hnodup
        exact hnodup
      · intro other hother
        rcases List.mem_cons.1 hother with rfl | hother
        · exact ⟨EndpointTypes.returns_walk endpoint _ _ hwalk, ⟨endpoint, hrequest⟩,
            HookPlan.imports_of_build hhook⟩
        · exact hsound other hother

theorem nodup_declNames {name : String} {spec : ServiceSpec} {service : ServiceModule}
    (h : compile name spec = .ok service) :
    (declNames service.declarations).Nodup ∧
      ∀ endpoint ∈ service.endpoints, Sound service.ident endpoint := by
  obtain ⟨-, hchecked, hident, hendpoints⟩ := compile_ok h
  have hseen : (Entries.keys ([] : Entries String)).Nodup := List.nodup_nil
  have hnames : (spec.endpoints.map EndpointSpec.name).Nodup := by
    refine List.Nodup.of_map Text.pascalCase ?_
    rw [List.map_map]
    exact nodup_of_checkNames hseen hchecked
  rw [hident]
  exact compileEndpoints_declared TypeCache.coherent_empty (fun _ _ => rfl) hnames hendpoints

/-- In a service that compiles, the names of the types of the parameters, body and response of an
endpoint each belong to exactly one declaration of the module.  The signature of its request and the
type arguments in the text of its call mention no other types, but for the default `any`, and its
hook imports no other names from the module, but for the instance.  Whatever object type a
declaration refers to is declared with the same fields.  The text of the module has all declarations
and exports the instance. -/
theorem mentioned_types_declared {name : String} {spec : ServiceSpec} {service : ServiceModule}
    (h : compile name spec = .ok service) :
    (∀ endpoint ∈ service.endpoints,
      (∀ type ∈ endpoint.types.roleNames, (declNames service.declarations).count type = 1) ∧
      endpoint.request.signature = ", ".intercalate
        ((endpoint.types.paramsName.map ("params: " ++ ·)).toList ++
          (endpoint.types.bodyName.map ("body: " ++ ·)).toList) ∧
      (∃ behind, endpoint.request.call = "this.httpClient." ++ endpoint.request.method.name ++ "<" ++
        ", ".intercalate endpoint.request.typeArguments ++ ">(" ++ behind) ∧
      (∀ type ∈ endpoint.request.typeArguments, type ∈ endpoint.types.roleNames ∨
        type = "any" ∧ endpoint.types.responseName = none) ∧
      ∀ plan ∈ endpoint.hook, plan.className = service.ident.className ∧
        ∀ imported ∈ plan.serviceImports,
          imported ∈ endpoint.types.roleNames ∨ imported = service.ident.instanceName) ∧
    (∀ decl ∈ service.declarations, ∀ object ∈ decl.type.objects,
      object ∈ service.declarations) ∧
    service.files = .ok (⟨modulePath service.ident.className, service.text⟩ ::
      service.hooks.map fun plan => ⟨plan.path, plan.text⟩) ∧
    (∀ decl ∈ service.declarations, (declText decl).toList <:+: service.text.toList) ∧
    (exportText service.ident).toList <:+: service.text.toList := by
  obtain ⟨hnodup, hsound⟩ := nodup_declNames h
  refine ⟨fun endpoint hendpoint => ?_, ?_, service.files_eq, fun decl => declText_infix,
    service.exportText_infix⟩
  · obtain ⟨hcomplete, ⟨source, hrequest⟩, himports⟩ := hsound endpoint hendpoint
    obtain ⟨hparams, hbody, hresponse⟩ := Request.types_of_build hrequest
    refine ⟨fun type htype => ?_, ?_, ⟨_, String.append_assoc⟩, fun type htype => ?_,
      fun plan hplan => ?_⟩
    · refine List.count_eq_one_of_mem hnodup ?_
      obtain ⟨decl, hdecl, hname⟩ :=
        List.mem_map.1 (EndpointTypes.mem_declNames_of_roleNames hcomplete htype)
      exact List.mem_map.2 ⟨decl, List.mem_flatMap.2 ⟨endpoint, hendpoint, hdecl⟩, hname⟩
    · rw [Request.signature, hparams, hbody]
    · rw [← hresponse]
      exact Request.mem_typeArguments hrequest htype
    · obtain ⟨hclass, hsubset⟩ := himports plan hplan
      refine ⟨hclass, fun imported himported => ?_⟩
      rcases List.mem_append.1 (hsubset himported) with hused | hinstance
      · exact .inl (Request.typesUsed_subset hrequest hused)
      · exact .inr (List.mem_singleton.1 hinstance)
  · exact Closed.flatMap fun endpoint hendpoint =>
      EndpointTypes.closed_declarations (hsound endpoint hendpoint).complete

/-- A service where the name of a nested type of the first endpoint is that of the parameters of the
second one. -/
def crowdedTodo : ServiceSpec :=
  { baseUrl := "/"
    endpoints := [
      { method := .get, name := "get", path := "/",
        response := some (.object [("params", .object [("a", .ofNat 1)])]) },
      { method := .get, name := "getResponse", path := "/",
        params := some (.object [("b", .string "")]), useQuery := some (.enabled true) }] }

theorem mentioned_types_declared_crowdedTodo :
    ∃ service, compile "todo" crowdedTodo = .ok service ∧
      ∃ endpoint ∈ service.endpoints, endpoint.types.roleNames = ["TGetResponseParams2"] ∧
        (declNames service.declarations).count "TGetResponseParams2" = 1 ∧
        (∃ behind, endpoint.request.call = "this.httpClient." ++ endpoint.request.method.name ++
          "<" ++ ", ".intercalate endpoint.request.typeArguments ++ ">(" ++ behind) ∧
        ∃ plan ∈ endpoint.hook, plan.serviceImports = ["TGetResponseParams2", "todoService"] ∧
          plan.className = service.ident.className := by
  have hroles : (compile "todo" crowdedTodo).toOption.map
      (fun service => service.endpoints.map fun endpoint =>
        (endpoint.types.roleNames, endpoint.hook.map HookPlan.serviceImports)) =
      some [(["TGetResponse"], none),
        (["TGetResponseParams2"], some ["TGetResponseParams2", "todoService"])] := by
    decide +kernel
  obtain ⟨service, hcompile, hpairs⟩ := exists_of_toOption hroles
  obtain ⟨first, second, hendpoints⟩ : ∃ first second, service.endpoints = [first, second] :=
    List.length_eq_two.1 (by simpa using congrArg List.length hpairs)
  have hsecond : second ∈ service.endpoints := by simp [hendpoints]
  simp only [hendpoints, List.map_cons, List.map_nil, List.cons.injEq, Prod.mk.injEq,
    and_true] at hpairs
  obtain ⟨-, hnames, himports⟩ := hpairs
  obtain ⟨plan, hplan, himports⟩ := Option.map_eq_some_iff.1 himports
  obtain ⟨hdeclared, -, hcall, -, hhook⟩ := (mentioned_types_declared hcompile).1 second hsecond
  exact ⟨service, hcompile, second, hsecond, hnames, hdeclared _ (by simp [hnames]), hcall, plan,
    hplan, himports, (hhook plan hplan).1⟩

end ServiceModule

end ClientLoom
