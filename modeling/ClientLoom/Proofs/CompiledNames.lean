import ClientLoom.Proofs.DeclarationOrder
import ClientLoom.Proofs.ServiceChecks

/-!
# The names that a compiled service takes from its endpoints

Each endpoint of a service is compiled on its own, but for the registry of names that the endpoints
share.  The types of an example are declared under a name that is made of the name of the endpoint
and the role of the example, with identifier characters behind it.
-/

namespace ClientLoom

open Walk (Returns returns_true returns_pure)

/-! ## Endpoints and what they are compiled to -/

/-- The endpoint is compiled to its types, under some registry, its request and its hook. -/
structure CompiledFrom (ident : ServiceIdent) (endpoint : EndpointSpec)
    (compiled : CompiledEndpoint) : Prop where
  types : ∃ names, ((EndpointTypes.walk endpoint).run names).1 = .ok compiled.types
  request : Request.build endpoint compiled.types = .ok compiled.request
  hook : HookPlan.build ⟨ident, compiled.types, compiled.request⟩ endpoint = .ok compiled.hook

namespace ServiceModule

/-- Endpoints with new names of their own are compiled one by one. -/
theorem forall₂_compileEndpoints {ident : ServiceIdent} {cache : TypeCache}
    {endpoints : List EndpointSpec} {compiled : List CompiledEndpoint}
    (hnew : ∀ endpoint ∈ endpoints, cache.cached.get? endpoint.name = none)
    (hnames : (endpoints.map EndpointSpec.name).Nodup)
    (h : compileEndpoints ident cache endpoints = .ok compiled) :
    List.Forall₂ (CompiledFrom ident) endpoints compiled := by
  induction endpoints generalizing cache compiled with
  | nil =>
      obtain rfl := Except.ok.inj h
      exact .nil
  | cons endpoint endpoints ih =>
      obtain ⟨first, cache', others, hfirst, hothers, rfl⟩ := compileEndpoints_cons_ok h
      obtain ⟨htypes, hrequest, hhook⟩ := compileEndpoint_ok hfirst
      obtain ⟨hwalk, -⟩ := TypeCache.typesFor_new_ok (hnew endpoint List.mem_cons_self) htypes
      obtain ⟨hname, hrest⟩ := List.nodup_cons.1 hnames
      have hnew' := TypeCache.get?_eq_none_of_typesFor hnew hname htypes
      exact .cons ⟨⟨_, hwalk⟩, hrequest, hhook⟩ (ih hnew' hrest hothers)

theorem forall₂_compiledFrom {name : String} {spec : ServiceSpec} {service : ServiceModule}
    (h : compile name spec = .ok service) :
    service.ident = ServiceIdent.ofKey name ∧
      List.Forall₂ (CompiledFrom service.ident) spec.endpoints service.endpoints := by
  obtain ⟨hvalid, -, hident, hendpoints⟩ := compile_ok h
  rw [hident]
  exact ⟨rfl, forall₂_compileEndpoints (fun _ _ => rfl) (ServiceSpec.validate_eq_ok_iff.1 hvalid).1
    hendpoints⟩

theorem exists_compiledFrom {name : String} {spec : ServiceSpec} {service : ServiceModule}
    (h : compile name spec = .ok service) {compiled : CompiledEndpoint}
    (hmem : compiled ∈ service.endpoints) :
    ∃ endpoint ∈ spec.endpoints, CompiledFrom service.ident endpoint compiled :=
  exists_of_forall₂ (List.Forall₂.flip (forall₂_compiledFrom h).2) hmem

end ServiceModule

/-! ## Names of types -/

namespace EndpointSpec

/-- The roles of the examples that an endpoint gives, as they stand in the names of types. -/
def roles (endpoint : EndpointSpec) : List String :=
  (if endpoint.params.isSome then ["Params"] else []) ++
    (if endpoint.body.isSome then ["Body"] else []) ++
    (if endpoint.response.isSome then ["Response"] else [])

theorem roles_subset (endpoint : EndpointSpec) :
    endpoint.roles ⊆ ["Params", "Body", "Response"] := by
  intro role hrole
  simp only [roles, List.mem_append] at hrole
  grind

/-- The name under which the type of the example in a role is declared, unless it is taken. -/
def typeName (endpoint : EndpointSpec) (role : String) : String :=
  "T" ++ Text.pascalCase endpoint.name ++ role

end EndpointSpec

namespace EndpointTypes

/-- What holds of the types of every example holds of those of an endpoint, in their roles. -/
theorem returns_roles {post : String → Inferred → Prop}
    (h : ∀ sample declared field, Returns (Inferred.walk sample declared field) (post declared))
    (endpoint : EndpointSpec) :
    Returns (walk endpoint) fun types =>
      ∀ type ∈ types.roles, ∃ role ∈ endpoint.roles, post (endpoint.typeName role) type := by
  have hrole : ∀ base suffix field sample, Returns (role base suffix field sample) fun inferred =>
      ∀ type ∈ inferred.toList, sample.isSome = true ∧ post (base ++ suffix) type := by
    intro base suffix field sample
    cases sample with
    | none => exact returns_pure (by simp)
    | some sample =>
        rw [role, map_eq_pure_bind]
        refine (h sample (base ++ suffix) field).bind fun inferred hinferred => ?_
        exact returns_pure (by simpa using hinferred)
  rw [walk]
  refine (hrole _ "Params" "params" endpoint.params).bind fun params hparams => ?_
  refine (hrole _ "Body" "body" endpoint.body).bind fun body hbody => ?_
  refine (hrole _ "Response" "response" endpoint.response).bind fun response hresponse => ?_
  refine returns_pure fun type htype => ?_
  rcases List.mem_append.1 htype with htype | htype
  · rcases List.mem_append.1 htype with htype | htype
    · obtain ⟨hsome, hpost⟩ := hparams type htype
      exact ⟨"Params", by simp [EndpointSpec.roles, hsome], hpost⟩
    · obtain ⟨hsome, hpost⟩ := hbody type htype
      exact ⟨"Body", by simp [EndpointSpec.roles, hsome], hpost⟩
  · obtain ⟨hsome, hpost⟩ := hresponse type htype
    exact ⟨"Response", by simp [EndpointSpec.roles, hsome], hpost⟩

end EndpointTypes

/-- The name of an example is what it claims first. -/
theorem Inferred.returns_name {post : String → Prop} {declared : String}
    (h : Returns (Walk.claim declared) post) (sample : Json) (field : String) :
    Returns (Inferred.walk sample declared field) fun inferred => post inferred.name := by
  rw [Inferred.walk]
  refine h.bind fun name hname => ?_
  split
  · exact (returns_true _).bind fun result _ => returns_pure hname
  · exact (returns_true _).bind fun result _ => returns_pure hname

/-- The names of the types of an example extend the one that it is declared under. -/
theorem Inferred.returns_extends (sample : Json) (declared field : String) :
    Returns (Inferred.walk sample declared field) fun inferred =>
      AllExtend declared inferred.declarations := by
  intro names inferred hwalk
  have hname := Inferred.returns_name (Walk.returns_claim_extends declared) sample field names
    inferred hwalk
  exact (Inferred.returns_allExtend sample declared field names inferred hwalk).of_extends hname

/-- Every type of a compiled endpoint has a name that extends that of one of its roles. -/
theorem CompiledFrom.extends_typeName {ident : ServiceIdent} {endpoint : EndpointSpec}
    {compiled : CompiledEndpoint} (h : CompiledFrom ident endpoint compiled) {decl : TypeDecl}
    (hdecl : decl ∈ compiled.types.declarations) :
    ∃ role ∈ endpoint.roles, Extends (endpoint.typeName role) decl.name := by
  obtain ⟨names, hwalk⟩ := h.types
  obtain ⟨type, htype, hdecl⟩ := List.mem_flatMap.1 hdecl
  obtain ⟨role, hrole, hextends⟩ :=
    EndpointTypes.returns_roles Inferred.returns_extends endpoint names _ hwalk type htype
  exact ⟨role, hrole, hextends decl hdecl⟩

end ClientLoom
