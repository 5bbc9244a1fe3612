import ClientLoom.Proofs.CompiledNames
import Mathlib.Data.List.Infix

/-!
# Exported types beside the class

The registry that keeps the types of a module apart starts empty, and the names of the class and of
the instance are made from the key of the service without it.  A type never has the name of the
instance or of the client that the module imports.  It has the name of the class only if it is the
type of a field, and only if the key of the service begins as the name of a type does.
-/

namespace ClientLoom

open Text (nameSegment pascalCase toList_pascalCase)
open Walk (Returns returns_true returns_pure)

/-! ## Where the names of types come from -/

/-- The name is `base`, as it is or with a number behind it. -/
def NumberedFrom (base name : String) : Prop :=
  name = base ∨ ∃ n, name = TypeNames.numbered base n

theorem Walk.returns_claim_numberedFrom (base : String) :
    Returns (Walk.claim base) (NumberedFrom base) := by
  intro names name hname
  obtain rfl := Except.ok.inj hname
  exact names.choose_cases base

/-- The object types in a type have names made of `base` and of the way to them. -/
inductive NamedAlong : String → TypeNode → Prop
  | flat {base : String} {type : TypeNode} (h : type.objects = []) : NamedAlong base type
  | array {base : String} {element : TypeNode} (h : NamedAlong (base ++ "Item") element) :
      NamedAlong base (.array element)
  | object {base name : String} {fields : List (Field TypeNode)} (hname : NumberedFrom base name)
      (hfields : ∀ field ∈ fields, NamedAlong (name ++ nameSegment field.key) field.type) :
      NamedAlong base (.object name fields)

namespace Shape

mutual

theorem returns_namedAlong (name field : String) (shape : Shape) :
    Returns (shape.declare name field) fun result => NamedAlong name result.1 := by
  match shape with
  | .null | .boolean | .number | .emptyArray =>
      rw [declare]
      exact returns_pure (.flat rfl)
  | .primitives kinds =>
      rw [declare]
      exact returns_pure (.flat (TypeNode.objects_ofKinds kinds))
  | .text leaf =>
      rw [declare]
      exact (Walk.returns_liftExcept fun _ htype => Leaf.objects_type htype).bind fun type htype =>
        returns_pure (.flat htype)
  | .array element =>
      rw [declare]
      exact (returns_namedAlong (name ++ "Item") (field ++ "[]") element).bind fun result hresult =>
        returns_pure (.array hresult)
  | .object fields =>
      rw [declare]
      refine (Walk.returns_claim_numberedFrom name).bind fun name' hname => ?_
      exact (returns_fieldsNamedAlong name' field fields).bind fun result hresult =>
        returns_pure (.object hname hresult)

theorem returns_fieldsNamedAlong (name field : String) (fields : List (Field Shape)) :
    Returns (declareFields name field fields) fun result =>
      ∀ member ∈ result.1, NamedAlong (name ++ nameSegment member.key) member.type := by
  match fields with
  | [] =>
      rw [declareFields]
      exact returns_pure (by simp)
  | ⟨key, optional, shape⟩ :: rest =>
      rw [declareFields]
      refine (returns_namedAlong _ _ shape).bind fun first hfirst => ?_
      exact (returns_fieldsNamedAlong name field rest).bind fun others hothers =>
        returns_pure (List.forall_mem_cons.2 ⟨hfirst, hothers⟩)

end

end Shape

theorem Inferred.returns_namedAlong (sample : Json) (declared field : String) :
    Returns (Inferred.walk sample declared field) fun inferred =>
      NamedAlong inferred.name inferred.root := by
  rw [Inferred.walk]
  refine (returns_true _).bind fun name _ => ?_
  split
  · exact (Shape.returns_fieldsNamedAlong name field _).bind fun result hresult =>
      returns_pure (.object (.inl rfl) hresult)
  · exact (Shape.returns_namedAlong name field _).bind fun result hresult => returns_pure hresult

/-- The declared object has a field of the key whose type is the object type of the name. -/
def TypeDecl.HasObjectField (parent : TypeDecl) (key name : String) : Prop :=
  ∃ fields optional inner, parent.type = .object parent.name fields ∧
    (⟨key, optional, .object name inner⟩ : Field TypeNode) ∈ fields

/-- The name is that of an element of an array or that of a field, not that of an example. -/
inductive NamedInside (decls : List TypeDecl) (name : String) : Prop
  | item (base : String) (h : NumberedFrom (base ++ "Item") name)
  | field {parent : TypeDecl} {key : String} (hparent : parent ∈ decls)
      (hfield : parent.HasObjectField key name)
      (h : NumberedFrom (parent.name ++ nameSegment key) name)

theorem NamedInside.mono {decls more : List TypeDecl} {name : String} (h : NamedInside decls name)
    (hsubset : decls ⊆ more) : NamedInside more name := by
  cases h with
  | item base h => exact .item base h
  | field hparent hfield h => exact .field (hsubset hparent) hfield h

theorem TypeDecl.HasObjectField.mem_objects {parent : TypeDecl} {key name : String}
    (h : parent.HasObjectField key name) : ∃ inner, ⟨name, inner⟩ ∈ parent.type.objects := by
  obtain ⟨fields, optional, inner, htype, hfield⟩ := h
  refine ⟨.object name inner, ?_⟩
  rw [htype, TypeNode.objects]
  refine List.mem_cons_of_mem _ (TypeNode.mem_fieldObjects.2 ⟨_, hfield, ?_⟩)
  rw [TypeNode.objects]
  exact List.mem_cons_self

/-- An object type in a type is that type itself, or it is named as an element or a field. -/
theorem NamedAlong.origin {base : String} {type : TypeNode} (h : NamedAlong base type)
    {decl : TypeDecl} (hdecl : decl ∈ type.objects) :
    ((∃ fields, type = .object decl.name fields) ∧ NumberedFrom base decl.name) ∨
      NamedInside type.objects decl.name := by
  induction h with
  | flat hflat =>
      rw [hflat] at hdecl
      cases hdecl
  | array _ ih =>
      rw [TypeNode.objects] at hdecl ⊢
      rcases ih hdecl with ⟨-, hname⟩ | hinside
      · exact .inr (.item _ hname)
      · exact .inr hinside
  | @object base name fields hname _ ih =>
      rw [TypeNode.objects] at hdecl ⊢
      rcases List.mem_cons.1 hdecl with rfl | hdecl
      · exact .inl ⟨⟨fields, rfl⟩, hname⟩
      · obtain ⟨field, hfield, hdecl⟩ := TypeNode.mem_fieldObjects.1 hdecl
        rcases ih field hfield hdecl with ⟨⟨inner, htype⟩, hfieldName⟩ | hinside
        · -- The object around the field is the first one.
          have hmember : (⟨field.key, field.optional, .object decl.name inner⟩ : Field TypeNode) ∈
              fields := by
            rw [← htype]
            exact hfield
          exact .inr (.field List.mem_cons_self ⟨fields, _, inner, rfl, hmember⟩ hfieldName)
        · refine .inr (hinside.mono fun other hother => ?_)
          exact List.mem_cons_of_mem _ (TypeNode.mem_fieldObjects.2 ⟨field, hfield, hother⟩)

theorem Inferred.returns_origin (sample : Json) (declared field : String) :
    Returns (Inferred.walk sample declared field) fun inferred =>
      ∀ decl ∈ inferred.declarations,
        NumberedFrom declared decl.name ∨ NamedInside inferred.declarations decl.name := by
  intro names inferred hwalk decl hdecl
  have hname := Inferred.returns_name (Walk.returns_claim_numberedFrom declared) sample field names
    inferred hwalk
  have halong := Inferred.returns_namedAlong sample declared field names inferred hwalk
  obtain ⟨hdecls, hroot⟩ := Inferred.returns_preorder sample declared field names inferred hwalk
  have hcomplete := Inferred.returns_walk sample declared field names inferred hwalk
  rw [hdecls] at hdecl
  rcases List.mem_cons.1 hdecl with rfl | hdecl
  · exact .inl hname
  · have hobject := inferred.root.innerObjects_subset hdecl
    rcases halong.origin hobject with ⟨⟨fields, htype⟩, -⟩ | hinside
    · rw [hroot _ _ htype]
      exact .inl hname
    · exact .inr (hinside.mono (hcomplete.closed _ hcomplete.root))

/-- A type of a compiled endpoint has the name of a role or that of an element or of a field. -/
theorem CompiledFrom.origin {ident : ServiceIdent} {endpoint : EndpointSpec}
    {compiled : CompiledEndpoint} (h : CompiledFrom ident endpoint compiled) {decl : TypeDecl}
    (hdecl : decl ∈ compiled.types.declarations) :
    (∃ role ∈ endpoint.roles, NumberedFrom (endpoint.typeName role) decl.name) ∨
      NamedInside compiled.types.declarations decl.name := by
  obtain ⟨names, hwalk⟩ := h.types
  obtain ⟨type, htype, hdecl⟩ := List.mem_flatMap.1 hdecl
  obtain ⟨role, hrole, horigin⟩ :=
    EndpointTypes.returns_roles Inferred.returns_origin endpoint names _ hwalk type htype
  rcases horigin decl hdecl with hname | hinside
  · exact .inl ⟨role, hrole, hname⟩
  · exact .inr (hinside.mono fun other hother => List.mem_flatMap.2 ⟨type, htype, hother⟩)

/-! ## The name of the class -/

/-- No text ends both in one of the words that types end in and in letters that `Service` begins
with. -/
theorem not_suffix_of_service {front text : List Char} {ending : String}
    (hending : ending ∈ ["Params", "Body", "Response", "Item"]) (hne : front ≠ [])
    (hfront : front <+: "Service".toList) (h : front <:+ text) : ¬ ending.toList <:+ text := by
  have hapart : ∀ front ∈ "Service".toList.inits, front ≠ [] →
      ∀ ending ∈ ["Params", "Body", "Response", "Item"],
        ¬ front <:+ ending.toList ∧ ¬ ending.toList <:+ front := by
    decide +kernel
  intro h'
  have hmem := (List.mem_inits _ _).2 hfront
  obtain ⟨hfrontEnding, hendingFront⟩ := hapart front hmem hne ending hending
  rcases List.suffix_or_suffix_of_suffix h h' with hsuffix | hsuffix
  · exact hfrontEnding hsuffix
  · exact hendingFront hsuffix

namespace ServiceIdent

theorem className_ne_numbered (key base : String) (n : Nat) :
    (ofKey key).className ≠ TypeNames.numbered base n := by
  intro h
  have hlast : (Nat.toDigits 10 n).getLast? = some 'e' := by
    have hchars := congrArg (fun name => name.toList.getLast?) h
    simp only [TypeNames.numbered, toList_className, String.toList_append,
      Nat.toString_eq_ofList_toDigits, String.toList_ofList,
      List.getLast?_append_of_ne_nil _ Nat.toDigits_ne_nil] at hchars
    rw [← hchars, List.getLast?_append_of_ne_nil _ (by decide)]
    decide
  have hdigit : 'e'.isDigit = true :=
    Nat.isDigit_of_mem_toDigits (by decide) (by decide) (List.mem_of_getLast? hlast)
  exact absurd hdigit (by decide)

theorem not_numberedFrom_className {key front ending : String}
    (hending : ending ∈ ["Params", "Body", "Response", "Item"]) :
    ¬ NumberedFrom (front ++ ending) (ofKey key).className := by
  rintro (hname | ⟨n, hname⟩)
  · have hservice : "Service".toList <:+ (ofKey key).className.toList := by
      rw [toList_className]
      exact List.suffix_append _ _
    have hsuffix : ending.toList <:+ (ofKey key).className.toList := by
      rw [hname, String.toList_append]
      exact List.suffix_append _ _
    exact not_suffix_of_service hending (by decide) (List.prefix_refl _) hservice hsuffix
  · exact className_ne_numbered key _ n hname

theorem head?_instanceName_ne (key : String) :
    (ofKey key).instanceName.toList.head? ≠ some 'T' := by
  have hhead := Text.head?_camelChars_ne (ofKey key).className.toList
  simpa [ofKey, Text.camelCase] using hhead

/-- A name of a type that a class begins with ends in front of `Service`. -/
theorem prefix_pascalCase {key front ending : String}
    (hending : ending ∈ ["Params", "Body", "Response", "Item"])
    (h : (front ++ ending).toList <+: (ofKey key).className.toList) :
    (front ++ ending).toList <+: (pascalCase key).toList := by
  rw [toList_className, ← toList_pascalCase] at h
  rcases List.prefix_or_prefix_of_prefix h (List.prefix_append _ _) with hshort | ⟨more, hmore⟩
  · exact hshort
  · rw [← hmore, List.prefix_append_right_inj] at h
    have hnil : more = [] := by
      by_contra hne
      refine not_suffix_of_service hending hne h ⟨_, hmore⟩ ?_
      rw [String.toList_append]
      exact List.suffix_append _ _
    rw [← hmore, hnil, List.append_nil]

end ServiceIdent

namespace ServiceModule

variable {name : String} {spec : ServiceSpec} {service : ServiceModule}

/-- The types of a service come from its endpoints. -/
theorem exists_source (h : compile name spec = .ok service) {decl : TypeDecl}
    (hdecl : decl ∈ service.declarations) :
    ∃ endpoint ∈ spec.endpoints, ∃ compiled ∈ service.endpoints,
      CompiledFrom service.ident endpoint compiled ∧ decl ∈ compiled.types.declarations := by
  obtain ⟨compiled, hmem, hdecl⟩ := List.mem_flatMap.1 hdecl
  obtain ⟨endpoint, hendpoint, hfrom⟩ := exists_compiledFrom h hmem
  exact ⟨endpoint, hendpoint, compiled, hmem, hfrom, hdecl⟩

theorem closed_declarations (h : compile name spec = .ok service) :
    Closed service.declarations :=
  Closed.flatMap fun endpoint hendpoint =>
    EndpointTypes.closed_declarations ((nodup_declNames h).2 endpoint hendpoint).complete

/-- The type that has the name of the class is that of a field. -/
theorem exists_field_of_className (h : compile name spec = .ok service) {decl : TypeDecl}
    (hdecl : decl ∈ service.declarations) (hname : decl.name = service.ident.className) :
    ∃ parent ∈ service.declarations, ∃ key, parent.HasObjectField key service.ident.className ∧
      service.ident.className = parent.name ++ nameSegment key := by
  obtain ⟨endpoint, -, compiled, hmem, hfrom, hdecl⟩ := exists_source h hdecl
  have horigin := hfrom.origin hdecl
  rw [hname, (forall₂_compiledFrom h).1] at horigin
  rw [(forall₂_compiledFrom h).1]
  rcases horigin with ⟨role, hrole, hnumbered⟩ | hinside
  · have hending := List.mem_append_left ["Item"] (endpoint.roles_subset hrole)
    exact absurd hnumbered (ServiceIdent.not_numberedFrom_className hending)
  · cases hinside with
    | item base hnumbered =>
        exact absurd hnumbered (ServiceIdent.not_numberedFrom_className (by decide))
    | @field parent key hparent hfield hnumbered =>
        refine ⟨parent, List.mem_flatMap.2 ⟨compiled, hmem, hparent⟩, key, hfield, ?_⟩
        rcases hnumbered with hsame | ⟨n, hsame⟩
        · exact hsame
        · exact absurd hsame (ServiceIdent.className_ne_numbered name _ n)

/-- No type of a service that compiles has the name of the instance or of the imported client.  A
type has the name of the class exactly if there is a field with an object type whose key, behind the
name of the object around it, gives that name.  Then the Pascal case of the key of the service begins
with the name of the type of an example. -/
theorem declared_className_iff (h : compile name spec = .ok service) :
    (∀ decl ∈ service.declarations,
        decl.name ≠ service.ident.instanceName ∧ decl.name ≠ "HttpClient") ∧
      ((∃ decl ∈ service.declarations, decl.name = service.ident.className) ↔
        ∃ parent ∈ service.declarations, ∃ key,
          parent.HasObjectField key service.ident.className ∧
            service.ident.className = parent.name ++ nameSegment key) ∧
      ((∃ decl ∈ service.declarations, decl.name = service.ident.className) →
        ∃ endpoint ∈ spec.endpoints, ∃ role ∈ endpoint.roles,
          (endpoint.typeName role).toList <+: (pascalCase name).toList) := by
  have hident := (forall₂_compiledFrom h).1
  refine ⟨fun decl hdecl => ?_, ⟨?_, ?_⟩, ?_⟩
  · obtain ⟨endpoint, -, compiled, -, hfrom, hdecl⟩ := exists_source h hdecl
    obtain ⟨role, -, suffix, hname, -⟩ := hfrom.extends_typeName hdecl
    have hhead : decl.name.toList.head? = some 'T' := by
      rw [hname]
      simp [EndpointSpec.typeName]
    refine ⟨fun hsame => ?_, fun hsame => ?_⟩
    · rw [hsame, hident] at hhead
      exact ServiceIdent.head?_instanceName_ne name hhead
    · rw [hsame] at hhead
      exact absurd hhead (by decide)
  · rintro ⟨decl, hdecl, hname⟩
    exact exists_field_of_className h hdecl hname
  · rintro ⟨parent, hparent, key, hfield, -⟩
    obtain ⟨inner, hinner⟩ := hfield.mem_objects
    exact ⟨_, closed_declarations h parent hparent _ hinner, rfl⟩
  · rintro ⟨decl, hdecl, hclass⟩
    obtain ⟨endpoint, hendpoint, compiled, -, hfrom, hdecl⟩ := exists_source h hdecl
    obtain ⟨role, hrole, suffix, hname, -⟩ := hfrom.extends_typeName hdecl
    have hending := List.mem_append_left ["Item"] (endpoint.roles_subset hrole)
    refine ⟨endpoint, hendpoint, role, hrole, ServiceIdent.prefix_pascalCase hending ?_⟩
    have htext : (endpoint.typeName role ++ suffix).toList =
        (endpoint.typeName role).toList ++ suffix.toList := String.toList_append
    rw [← hident, ← hclass, hname, htext]
    exact List.prefix_append _ _

/-- An endpoint whose parameters have a field that is named like the end of a class. -/
def serviceField : ServiceSpec :=
  { baseUrl := "/"
    endpoints := [
      { method := .get, name := "todo", path := "/todo",
        params := some (.object [("service", .object [])]) }] }

theorem compile_serviceField : ∃ service, compile "tTodoParams" serviceField = .ok service ∧
    service.ident = ⟨"TTodoParamsService", "tTodoParamsService"⟩ ∧
    ∃ decl ∈ service.declarations, decl.name = "TTodoParamsService" := by
  have hnames : (compile "tTodoParams" serviceField).toOption.map
      (fun service => (service.ident, declNames service.declarations)) =
        some (⟨"TTodoParamsService", "tTodoParamsService"⟩,
          ["TTodoParams", "TTodoParamsService"]) := by
    decide +kernel
  obtain ⟨service, hservice, hpair⟩ := exists_of_toOption hnames
  obtain ⟨hident, hdecls⟩ := Prod.mk.inj hpair
  have hmem : "TTodoParamsService" ∈ declNames service.declarations := by simp [hdecls]
  exact ⟨service, hservice, hident, List.mem_map.1 hmem⟩

theorem declared_className_iff_serviceField :
    ∃ service, compile "tTodoParams" serviceField = .ok service ∧
      service.ident.className = "TTodoParamsService" ∧
      ∃ parent ∈ service.declarations, ∃ key,
        parent.HasObjectField key "TTodoParamsService" ∧
          "TTodoParamsService" = parent.name ++ nameSegment key := by
  obtain ⟨service, hservice, hident, hdecl⟩ := compile_serviceField
  have hfield := (declared_className_iff hservice).2.1.1
  rw [hident] at hfield
  exact ⟨service, hservice, by rw [hident], hfield hdecl⟩

/-- A service compiles that exports a type of the name of its class. -/
theorem exported_type_named_as_class :
    ¬ ∀ (name : String) (spec : ServiceSpec) (service : ServiceModule),
      compile name spec = .ok service → ∀ decl ∈ service.declarations,
        decl.name ≠ service.ident.className ∧ decl.name ≠ service.ident.instanceName ∧
          decl.name ≠ "HttpClient" := by
  intro hall
  obtain ⟨service, hservice, hident, decl, hdecl, hname⟩ := compile_serviceField
  refine (hall "tTodoParams" serviceField service hservice decl hdecl).1 ?_
  rw [hname, hident]

end ServiceModule

end ClientLoom
