import ClientLoom.EndpointTypes
import ClientLoom.Proofs.EntryLists
import ClientLoom.Proofs.NameRegistry

/-!
# The names that declarations take

Inference declares an object under every name that it claims and claims no other names.  So the
registry of a cache holds the names of the declarations in it, each once, after every sequence of
calls: a failed call changes nothing, and a cached name is answered without a claim.
-/

namespace ClientLoom

open Walk (Claims claims_pure claims_claim claims_liftExcept)

/-- The names of declarations, in order. -/
def declNames (decls : List TypeDecl) : List String :=
  decls.map TypeDecl.name

@[simp] theorem declNames_nil : declNames [] = [] := rfl

@[simp] theorem declNames_cons (decl : TypeDecl) (decls : List TypeDecl) :
    declNames (decl :: decls) = decl.name :: declNames decls := rfl

@[simp] theorem declNames_append (decls more : List TypeDecl) :
    declNames (decls ++ more) = declNames decls ++ declNames more :=
  List.map_append

/-! ## The walk over a shape -/

namespace Shape

mutual

/-- The walk over a shape claims the names of its declarations. -/
theorem claims_declare (name field : String) (shape : Shape) :
    Claims (shape.declare name field) fun result added => (declNames result.2).Perm added := by
  match shape with
  | .null | .boolean | .number | .emptyArray | .primitives _ =>
      rw [declare]
      exact claims_pure .nil
  | .text leaf =>
      rw [declare]
      have hleaf : Claims (liftExcept (leaf.type field)) fun _ added => added = [] :=
        claims_liftExcept _ fun _ _ => rfl
      refine hleaf.bind ?_
      rintro type added rfl
      exact claims_pure .nil
  | .array element =>
      rw [declare]
      refine (claims_declare (name ++ "Item") (field ++ "[]") element).bind ?_
      rintro ⟨type, decls⟩ added hadded
      exact claims_pure hadded
  | .object fields =>
      rw [declare]
      refine (claims_claim name).bind ?_
      rintro name' added rfl
      refine (claims_declareFields name' field fields).bind ?_
      rintro ⟨types, decls⟩ added hadded
      apply claims_pure
      -- The object takes its name before the names inside it.
      exact (hadded.cons name').trans (List.perm_append_singleton name' added).symm

/-- The walk over fields claims the names of the declarations in them. -/
theorem claims_declareFields (name field : String) (fields : List (Field Shape)) :
    Claims (declareFields name field fields) fun result added =>
      (declNames result.2).Perm added := by
  match fields with
  | [] =>
      rw [declareFields]
      exact claims_pure .nil
  | ⟨key, optional, shape⟩ :: rest =>
      rw [declareFields]
      refine (claims_declare _ _ shape).bind ?_
      rintro ⟨type, decls⟩ added hadded
      refine (claims_declareFields name field rest).bind ?_
      rintro ⟨types, more⟩ added' hadded'
      apply claims_pure
      rw [declNames_append]
      exact (hadded.append hadded').trans List.perm_append_comm

end

end Shape

/-! ## The walk over the examples of an endpoint -/

theorem Inferred.claims_walk (sample : Json) (declared field : String) :
    Claims (Inferred.walk sample declared field) fun inferred added =>
      (declNames inferred.declarations).Perm added := by
  rw [Inferred.walk]
  refine (claims_claim declared).bind ?_
  rintro name added rfl
  split
  · refine (Shape.claims_declareFields name field _).bind ?_
    rintro ⟨types, decls⟩ added hadded
    exact claims_pure ((hadded.cons name).trans (List.perm_append_singleton name added).symm)
  · refine (Shape.claims_declare name field _).bind ?_
    rintro ⟨root, decls⟩ added hadded
    exact claims_pure ((hadded.cons name).trans (List.perm_append_singleton name added).symm)

namespace EndpointTypes

theorem claims_role (base suffix field : String) (sample : Option Json) :
    Claims (role base suffix field sample) fun inferred added =>
      (declNames (inferred.toList.flatMap Inferred.declarations)).Perm added := by
  cases sample with
  | none => exact claims_pure .nil
  | some sample =>
      rw [role, map_eq_pure_bind]
      refine (Inferred.claims_walk sample _ field).bind ?_
      intro inferred added hadded
      apply claims_pure
      simpa using hadded

theorem claims_walk (endpoint : EndpointSpec) :
    Claims (walk endpoint) fun types added => (declNames types.declarations).Perm added := by
  rw [walk]
  refine (claims_role _ "Params" "params" endpoint.params).bind ?_
  intro params added hparams
  refine (claims_role _ "Body" "body" endpoint.body).bind ?_
  intro body added' hbody
  refine (claims_role _ "Response" "response" endpoint.response).bind ?_
  intro response added'' hresponse
  apply claims_pure
  simp only [declarations, List.flatMap_append, declNames_append, List.nil_append]
  have hearlier := (hparams.append hbody).trans List.perm_append_comm
  rw [List.append_assoc added'']
  exact (hearlier.append hresponse).trans List.perm_append_comm

end EndpointTypes

/-! ## The cache of a service -/

namespace TypeCache

/-- The names of all declarations of all cached endpoints. -/
def declaredNames (cache : TypeCache) : List String :=
  cache.cached.flatMap fun entry => declNames entry.2.declarations

/-- The registry holds the declared names and no others, each once. -/
structure Coherent (cache : TypeCache) : Prop where
  nodup : cache.names.used.Nodup
  perm : cache.names.used.Perm cache.declaredNames

/-- The cache after calls for endpoints, one after the other, on a fresh one. -/
def after (endpoints : List EndpointSpec) : TypeCache :=
  endpoints.foldl (fun cache endpoint => (cache.typesFor endpoint).2) {}

theorem coherent_empty : Coherent {} :=
  ⟨List.nodup_nil, .nil⟩

/-- A call either leaves the cache as it is, or it adds the types of one endpoint and the names that
its inference claimed. -/
theorem typesFor_cases (cache : TypeCache) (endpoint : EndpointSpec) :
    (cache.typesFor endpoint).2 = cache ∨
      ∃ types, ((EndpointTypes.walk endpoint).run cache.names).1 = .ok types ∧
        (cache.typesFor endpoint).2 =
          ⟨cache.cached ++ [(endpoint.name, types)],
            ((EndpointTypes.walk endpoint).run cache.names).2⟩ := by
  cases hget : cache.cached.get? endpoint.name with
  | some types => exact Or.inl (by simp [typesFor, hget])
  | none =>
      cases hrun : (EndpointTypes.walk endpoint).run cache.names with
      | mk outcome names =>
          cases outcome with
          | error e => exact Or.inl (by simp [typesFor, hget, hrun])
          | ok types =>
              refine Or.inr ⟨types, rfl, ?_⟩
              simp [typesFor, hget, hrun, Entries.put_of_get?_eq_none hget]

theorem Coherent.typesFor {cache : TypeCache} (h : cache.Coherent) (endpoint : EndpointSpec) :
    (cache.typesFor endpoint).2.Coherent := by
  rcases cache.typesFor_cases endpoint with hsame | ⟨types, htypes, hadded⟩
  · rw [hsame]
    exact h
  · obtain ⟨added, hused, hnodup, hpost⟩ := EndpointTypes.claims_walk endpoint cache.names h.nodup
    rw [hadded]
    refine ⟨by rw [hused]; exact hnodup, ?_⟩
    have hnames := (hpost types htypes).symm
    rw [hused, declaredNames, List.flatMap_append, List.flatMap_singleton]
    exact (hnames.append h.perm).trans List.perm_append_comm

theorem Coherent.foldl {cache : TypeCache} (h : cache.Coherent) (endpoints : List EndpointSpec) :
    (endpoints.foldl (fun cache endpoint => (cache.typesFor endpoint).2) cache).Coherent := by
  induction endpoints generalizing cache with
  | nil => exact h
  | cons endpoint endpoints ih => exact ih (h.typesFor endpoint)

/-- After every sequence of calls on a fresh cache, no two declarations of cached endpoints have the
same name, the registry holds exactly the names of these declarations, and it counts them. -/
theorem after_declaredNames (endpoints : List EndpointSpec) :
    (after endpoints).declaredNames.Nodup ∧
      (∀ name : String, (after endpoints).names.contains name = true ↔
        name ∈ (after endpoints).declaredNames) ∧
      (after endpoints).names.size =
        ((after endpoints).cached.flatMap fun entry => entry.2.declarations).length := by
  have hcoherent : (after endpoints).Coherent := coherent_empty.foldl endpoints
  refine ⟨hcoherent.perm.nodup_iff.1 hcoherent.nodup, ?_, ?_⟩
  · intro name
    rw [TypeNames.contains_iff, hcoherent.perm.mem_iff]
  · rw [TypeNames.size, hcoherent.perm.length_eq, declaredNames, List.length_flatMap,
      List.length_flatMap]
    simp [declNames]

end TypeCache

end ClientLoom
