import ClientLoom.Proofs.DeclaredTypes
import ClientLoom.Proofs.TemplateLiterals

/-!
# The places of parameters in a request

A request can be built exactly when every token of the path has a parameter.  Each parameter is then
used in one place: in the path, or among the query parameters.  The text of the call has a slot for
each argument: the literal of the path, the query parameters, the body.
-/

namespace ClientLoom

open Text (objectKey propertyRead)

/-- The example of the parameters is an object with the key. -/
def EndpointSpec.HasParam (endpoint : EndpointSpec) (key : String) : Prop :=
  ∃ fields : Entries Json, endpoint.params = some (.object fields) ∧ key ∈ fields.keys

theorem EndpointSpec.mem_paramKeys {endpoint : EndpointSpec} {key : String} :
    key ∈ endpoint.paramKeys ↔ endpoint.HasParam key := by
  unfold paramKeys HasParam
  cases endpoint.params with
  | none => simp [Entries.keys]
  | some sample =>
      cases sample with
      | object fields => simp [Json.fields?]
      | null | bool _ | number _ | string _ | array _ => simp [Json.fields?, Entries.keys]

/-- The endpoint has a body and a method other than GET and DELETE. -/
def EndpointSpec.sendsBody (endpoint : EndpointSpec) : Bool :=
  endpoint.body.isSome && endpoint.method != .get && endpoint.method != .delete

/-- The tokens of a path have the keys of its token parts. -/
@[simp] theorem PathToken.map_key_ofParts (offset : Nat) (parts : List PathPart) :
    (ofParts offset parts).map PathToken.key = Request.tokenKeys parts := by
  induction parts generalizing offset with
  | nil => rfl
  | cons part parts ih =>
      cases part with
      | text cs => exact ih _
      | token key => exact congrArg (String.ofList key :: ·) (ih _)

namespace EndpointTypes

open Walk (Returns returns_pure)

theorem returns_role_isSome (base suffix field : String) (sample : Option Json) :
    Returns (role base suffix field sample) fun inferred => inferred.isSome = sample.isSome := by
  cases sample with
  | none => exact returns_pure rfl
  | some sample =>
      rw [role, map_eq_pure_bind]
      exact (Walk.returns_true _).bind fun inferred _ => returns_pure rfl

/-- An endpoint has types for the examples that it gives. -/
theorem returns_walk_isSome (endpoint : EndpointSpec) :
    Returns (walk endpoint) fun types =>
      types.params.isSome = endpoint.params.isSome ∧ types.body.isSome = endpoint.body.isSome := by
  rw [walk]
  refine (returns_role_isSome _ "Params" "params" endpoint.params).bind fun params hparams => ?_
  refine (returns_role_isSome _ "Body" "body" endpoint.body).bind fun body hbody => ?_
  exact (Walk.returns_true _).bind fun response _ => returns_pure ⟨hparams, hbody⟩

end EndpointTypes

namespace Request

variable {endpoint : EndpointSpec} {types : EndpointTypes} {request : Request}

/-! ## Tokens without a parameter -/

/-- The leftmost token of a path whose key is not one of `keys` has this key. -/
theorem find?_tokenKeys_eq_some_iff {path key : String} {keys : List String} :
    (tokenKeys (PathTemplate.parts path.toList)).find? (fun key => !keys.contains key) = some key ↔
      ∃ front token back, PathToken.scan path = front ++ token :: back ∧
        (∀ earlier ∈ front, earlier.key ∈ keys) ∧ token.key ∉ keys ∧ token.key = key := by
  have hkeys : tokenKeys (PathTemplate.parts path.toList) =
      (PathToken.scan path).map PathToken.key := (PathToken.map_key_ofParts 0 _).symm
  rw [hkeys, List.find?_map, Option.map_eq_some_iff]
  constructor
  · rintro ⟨token, hfind, hkey⟩
    obtain ⟨hunbound, front, back, hscan, hfront⟩ := List.find?_eq_some_iff_append.1 hfind
    refine ⟨front, token, back, hscan, fun earlier hearlier => ?_, ?_, hkey⟩
    · simpa using hfront earlier hearlier
    · simpa using hunbound
  · rintro ⟨front, token, back, hscan, hfront, hunbound, hkey⟩
    refine ⟨token, List.find?_eq_some_iff_append.2 ⟨?_, front, back, hscan, ?_⟩, hkey⟩
    · simpa using hunbound
    · intro earlier hearlier
      simpa using hfront earlier hearlier

theorem build_eq_error_iff {e : Error} :
    build endpoint types = .error e ↔
      ∃ front token back, PathToken.scan endpoint.path = front ++ token :: back ∧
        (∀ earlier ∈ front, endpoint.HasParam earlier.key) ∧ ¬ endpoint.HasParam token.key ∧
        e = .unboundPathParam endpoint.name token.key := by
  simp only [← EndpointSpec.mem_paramKeys]
  constructor
  · intro h
    simp only [build] at h
    split at h
    · rename_i key hfind
      obtain ⟨front, token, back, hscan, hfront, hunbound, rfl⟩ :=
        find?_tokenKeys_eq_some_iff.1 hfind
      exact ⟨front, token, back, hscan, hfront, hunbound, (Except.error.inj h).symm⟩
    · cases h
  · rintro ⟨front, token, back, hscan, hfront, hunbound, rfl⟩
    have hfind := find?_tokenKeys_eq_some_iff.2 ⟨front, token, back, hscan, hfront, hunbound, rfl⟩
    simp only [build, hfind]

/-! ## The text of the call -/

/-- The text of a call in front of its arguments. -/
def callFront (request : Request) : String :=
  "this.httpClient." ++ request.method.name ++ "<" ++ ", ".intercalate request.typeArguments ++ ">("

/-- What an argument adds to the text of a call behind the argument in front of it. -/
def argumentText : Option String → String
  | none => ""
  | some argument => ", " ++ argument

/-- The argument behind the path: the query parameters, or what keeps their slot for a body. -/
def secondArgument (request : Request) : Option String :=
  (queryCode? request.query).or (if request.forwardsBody then some "undefined" else none)

/-- The argument behind the query parameters: the body. -/
def thirdArgument (request : Request) : Option String :=
  if request.forwardsBody then some "body" else none

/-- Behind the literal of the path come the query parameters and the body, each in its own slot. -/
theorem call_slots (request : Request) :
    request.call = request.callFront ++ String.ofList (pathChars request.path) ++
      argumentText request.secondArgument ++ argumentText request.thirdArgument ++ ")" := by
  have harguments : ", ".intercalate request.arguments = String.ofList (pathChars request.path) ++
      argumentText request.secondArgument ++ argumentText request.thirdArgument := by
    unfold arguments secondArgument thirdArgument
    -- Each case writes out one, two or three arguments.
    cases request.forwardsBody with
    | false =>
        cases request.query with
        | absent | whole | rest keys => simp [queryCode?, argumentText, String.append_assoc]
    | true =>
        cases request.query with
        | absent | whole | rest keys => simp [queryCode?, argumentText, String.append_assoc]
  show request.callFront ++ ", ".intercalate request.arguments ++ ")" = _
  simp only [harguments, String.append_assoc]

theorem forwardsBody_eq (h : build endpoint types = .ok request)
    (hbody : types.body.isSome = endpoint.body.isSome) :
    request.forwardsBody = endpoint.sendsBody := by
  rw [(of_build h).2, EndpointSpec.sendsBody, ← hbody, Bool.and_assoc]
  cases endpoint.method with
  | get | delete | post | put | patch => rfl

/-- The method and the types in front of the arguments are those of the endpoint. -/
theorem callFront_eq (h : build endpoint types = .ok request)
    (hbody : types.body.isSome = endpoint.body.isSome) :
    request.callFront = "this.httpClient." ++ endpoint.method.name ++ "<" ++
      ", ".intercalate (types.responseName.getD "any" ::
        if endpoint.sendsBody then types.bodyName.toList else []) ++ ">(" := by
  obtain ⟨-, hbodyType, hresponseType⟩ := types_of_build h
  have hmethod : request.method = endpoint.method := by rw [(of_build h).2]
  unfold callFront typeArguments
  rw [hmethod, hbodyType, hresponseType, forwardsBody_eq h hbody]

/-! ## Parameters in the path and beside it -/

/-- The keys that the first argument of the call interpolates: those of the substitutions of the
template literal that stands behind the opening bracket, read with every parameter standing for its
own key. -/
def interpolated (endpoint : EndpointSpec) (request : Request) : List String :=
  match (request.call.toList.dropPrefix? request.callFront.toList).bind
      (TemplateLiteral.pieces? (.param endpoint.paramKeys id)) with
  | some (pieces, _) => (TemplateLiteral.substituted pieces).map String.ofList
  | none => []

theorem substituted_partPieces (value : String → String) (parts : List PathPart) :
    TemplateLiteral.substituted (parts.flatMap (partPieces value)) =
      (tokenKeys parts).map fun key => (value key).toList := by
  rw [TemplateLiteral.substituted, List.filterMap_flatMap]
  induction parts with
  | nil => rfl
  | cons part parts ih =>
      rw [List.flatMap_cons, ih]
      cases part with
      | text cs => simp [partPieces, tokenKeys]
      | token key => simp [partPieces, tokenKeys]

/-- The literal of the path interpolates the keys of its tokens. -/
theorem substituted_path (h : build endpoint types = .ok request) :
    TemplateLiteral.substituted (request.path.flatMap (partPieces id)) =
      (PathToken.scan endpoint.path).map fun token => token.key.toList := by
  have hpath : request.path = PathTemplate.parts endpoint.path.toList := by rw [(of_build h).2]
  rw [substituted_partPieces, hpath, ← PathToken.map_key_ofParts 0, List.map_map]
  rfl

theorem interpolated_eq (h : build endpoint types = .ok request) :
    request.interpolated endpoint = (PathToken.scan endpoint.path).map PathToken.key := by
  obtain ⟨behind, hcall⟩ : ∃ behind,
      request.call.toList = request.callFront.toList ++ (pathChars request.path ++ behind) := by
    refine ⟨(argumentText request.secondArgument ++ argumentText request.thirdArgument ++
      ")").toList, ?_⟩
    simp only [call_slots, String.toList_append, String.toList_ofList, List.append_assoc]
  -- The reader stops at the end of the literal, whatever arguments follow.
  rw [interpolated, hcall, List.dropPrefix?_append_of_beq _ (beq_self_eq_true _), Option.bind_some,
    pieces?_path h id behind]
  simp only [substituted_path h, List.map_map]
  exact List.map_congr_left fun token _ => String.ofList_toList

/-- The statement that collects the parameters with these keys. -/
def collecting (keys : List String) : String :=
  "const _params = \x7b " ++
    ", ".intercalate (keys.map fun key => objectKey key ++ ": " ++ propertyRead "params" key) ++
    " \x7d;"

/-- The keys of the parameters that the path does not interpolate, in order. -/
def leftOver (endpoint : EndpointSpec) (request : Request) : List String :=
  endpoint.paramKeys.filter fun key => !(request.interpolated endpoint).contains key

/-- A key of the parameters is either interpolated or left over. -/
theorem interpolated_or_leftOver (request : Request) {key : String}
    (hkey : key ∈ endpoint.paramKeys) :
    key ∈ request.interpolated endpoint ∧ key ∉ request.leftOver endpoint ∨
      key ∉ request.interpolated endpoint ∧ key ∈ request.leftOver endpoint := by
  have hleft : key ∈ request.leftOver endpoint ↔ key ∉ request.interpolated endpoint := by
    simp [leftOver, hkey]
  by_cases hpath : key ∈ request.interpolated endpoint
  · exact .inl ⟨hpath, fun hkept => hleft.1 hkept hpath⟩
  · exact .inr ⟨hpath, hleft.2 hpath⟩

theorem query_eq (h : build endpoint types = .ok request) :
    request.query = queryArgument types.params.isSome endpoint.paramKeys
      (request.interpolated endpoint) := by
  rw [interpolated_eq h, PathToken.scan, PathToken.map_key_ofParts, (of_build h).2]

/-- Without tokens in the path all parameters are sent beside it. -/
theorem query_of_scan_eq_nil (h : build endpoint types = .ok request)
    (hscan : PathToken.scan endpoint.path = []) :
    request.query = if types.params.isSome then .whole else .absent := by
  rw [query_eq h, interpolated_eq h, hscan]
  cases types.params.isSome with
  | false => rfl
  | true => rfl

/-- With tokens in the path the parameters that are left over are sent beside it. -/
theorem query_of_scan_ne_nil (h : build endpoint types = .ok request)
    (hparams : types.params.isSome = endpoint.params.isSome)
    (hscan : PathToken.scan endpoint.path ≠ []) :
    request.query =
      if request.leftOver endpoint = [] then .absent else .rest (request.leftOver endpoint) := by
  have htokens : request.interpolated endpoint ≠ [] := by
    rw [interpolated_eq h]
    exact fun hnil => hscan (List.map_eq_nil_iff.1 hnil)
  -- A path with tokens needs parameters, so there are some.
  have hsome : types.params.isSome = true := by
    obtain ⟨key, hkey⟩ := List.exists_mem_of_ne_nil _ htokens
    rw [interpolated_eq h, PathToken.scan, PathToken.map_key_ofParts] at hkey
    obtain ⟨fields, hfields, -⟩ := EndpointSpec.mem_paramKeys.1 ((of_build h).1 hkey)
    rw [hparams, hfields]
    rfl
  rw [query_eq h, queryArgument, hsome]
  simp [htokens, leftOver]

/-- Parameters are sent whole only if there are some and the path has no tokens. -/
theorem of_query_eq_whole (h : build endpoint types = .ok request)
    (hparams : types.params.isSome = endpoint.params.isSome) (hquery : request.query = .whole) :
    endpoint.params.isSome ∧ PathToken.scan endpoint.path = [] := by
  by_cases hscan : PathToken.scan endpoint.path = []
  · rw [query_of_scan_eq_nil h hscan, hparams] at hquery
    split_ifs at hquery with hsome
    exact ⟨hsome, hscan⟩
  · rw [query_of_scan_ne_nil h hparams hscan] at hquery
    split_ifs at hquery

/-! ## The second argument -/

theorem secondArgument_of_prelude (h : request.prelude?.isSome) :
    request.secondArgument = some "_params" := by
  unfold prelude? at h
  unfold secondArgument
  cases hquery : request.query with
  | absent | whole => simp [hquery] at h
  | rest keys => rfl

theorem secondArgument_of_scan_eq_nil (h : build endpoint types = .ok request)
    (hparams : types.params.isSome = endpoint.params.isSome) (hsome : endpoint.params.isSome)
    (hscan : PathToken.scan endpoint.path = []) : request.secondArgument = some "params" := by
  rw [secondArgument, query_of_scan_eq_nil h hscan, hparams, hsome]
  rfl

/-- Where nothing is sent beside the path, only a body needs the slot. -/
theorem secondArgument_of_absent (h : build endpoint types = .ok request)
    (hparams : types.params.isSome = endpoint.params.isSome) (hprelude : request.prelude? = none)
    (hother : ¬ (endpoint.params.isSome ∧ PathToken.scan endpoint.path = [])) :
    request.secondArgument = if request.forwardsBody then some "undefined" else none := by
  unfold prelude? at hprelude
  cases hquery : request.query with
  | absent => rw [secondArgument, hquery, queryCode?, Option.none_or]
  | whole => exact absurd (of_query_eq_whole h hparams hquery) hother
  | rest keys => simp [hquery] at hprelude

/-- For an endpoint with the types of its own examples, whatever names were taken before.  A request
cannot be built exactly when the path has a token whose key is not one of an object of parameters;
the error names the leftmost one.  The call of a request that is built is the method with the types
of the response and of a body that is sent, and then a template literal and the second and third
argument, if there are such.  The literal interpolates the keys of the tokens.  If there are tokens,
every parameter is either interpolated or left over, and those left over are collected in the order
of the parameters, each as often as it is one of them; without tokens nothing is collected.  The
second argument is `_params` if parameters are collected, `params` if there are parameters and the
path has no tokens, and otherwise `undefined` if a body follows and absent if none does.  The third
one is the body, which is sent unless the method is GET or DELETE. -/
theorem build_places_params {names : TypeNames}
    (htypes : ((EndpointTypes.walk endpoint).run names).1 = .ok types) :
    (∀ e : Error, build endpoint types = .error e ↔
      ∃ front token back, PathToken.scan endpoint.path = front ++ token :: back ∧
        (∀ earlier ∈ front, endpoint.HasParam earlier.key) ∧ ¬ endpoint.HasParam token.key ∧
        e = .unboundPathParam endpoint.name token.key) ∧
    ∀ request : Request, build endpoint types = .ok request →
      ∃ (literal : String) (pieces : List TemplatePiece) (second third : Option String),
        request.call = "this.httpClient." ++ endpoint.method.name ++ "<" ++
          ", ".intercalate (types.responseName.getD "any" ::
            if endpoint.sendsBody then types.bodyName.toList else []) ++ ">(" ++
          literal ++ argumentText second ++ argumentText third ++ ")" ∧
        (∀ after : List Char, TemplateLiteral.pieces? (.param endpoint.paramKeys id)
          (literal.toList ++ after) = some (pieces, after)) ∧
        TemplateLiteral.substituted pieces =
          (PathToken.scan endpoint.path).map (fun token => token.key.toList) ∧
        request.interpolated endpoint = (PathToken.scan endpoint.path).map PathToken.key ∧
        (PathToken.scan endpoint.path ≠ [] → ∃ rest : List String,
          rest.Sublist endpoint.paramKeys ∧ (endpoint.paramKeys.Nodup → rest.Nodup) ∧
          (∀ key ∈ endpoint.paramKeys,
            key ∈ request.interpolated endpoint ∧ key ∉ rest ∨
              key ∉ request.interpolated endpoint ∧ key ∈ rest) ∧
          request.prelude? = if rest = [] then none else some (collecting rest)) ∧
        (PathToken.scan endpoint.path = [] → request.prelude? = none) ∧
        (request.prelude?.isSome → second = some "_params") ∧
        (endpoint.params.isSome → PathToken.scan endpoint.path = [] → second = some "params") ∧
        (request.prelude? = none →
          ¬ (endpoint.params.isSome ∧ PathToken.scan endpoint.path = []) →
          second = if endpoint.sendsBody then some "undefined" else none) ∧
        third = if endpoint.sendsBody then some "body" else none := by
  obtain ⟨hparams, hbody⟩ := EndpointTypes.returns_walk_isSome endpoint names types htypes
  refine ⟨fun e => build_eq_error_iff, fun request h => ?_⟩
  have hforwards := forwardsBody_eq h hbody
  refine ⟨String.ofList (pathChars request.path), request.path.flatMap (partPieces id),
    request.secondArgument, request.thirdArgument, ?_, fun after => ?_, substituted_path h,
    interpolated_eq h, fun hscan => ?_, fun hscan => ?_, secondArgument_of_prelude,
    secondArgument_of_scan_eq_nil h hparams, fun hprelude hother => ?_,
    by rw [thirdArgument, hforwards]⟩
  · rw [← callFront_eq h hbody]
    exact call_slots request
  · rw [String.toList_ofList]
    exact pieces?_path h id after
  · have hsub : (request.leftOver endpoint).Sublist endpoint.paramKeys := List.filter_sublist
    refine ⟨request.leftOver endpoint, hsub, fun hkeys => hkeys.sublist hsub,
      fun key hkey => interpolated_or_leftOver request hkey, ?_⟩
    rw [prelude?, query_of_scan_ne_nil h hparams hscan]
    split_ifs with hrest
    · rfl
    · rfl
  · rw [prelude?, query_of_scan_eq_nil h hscan]
    split_ifs
    · rfl
    · rfl
  · rw [secondArgument_of_absent h hparams hprelude hother, hforwards]

/-- An endpoint with a token that repeats, a parameter whose key has to be quoted, and a body. -/
def mirrored : EndpointSpec :=
  { method := .put
    name := "mirror"
    path := "/\x7bid\x7d/copy/\x7bid\x7d"
    params := some (.object [("dry-run", .bool false), ("id", .string ""), ("n", .ofNat 0)])
    body := some (.object []) }

theorem build_places_params_mirrored :
    ∃ types request, EndpointTypes.infer mirrored = .ok types ∧
      build mirrored types = .ok request ∧
      request.call = "this.httpClient.put<any, TMirrorBody>(" ++
        "\x60/$\x7bparams.id\x7d/copy/$\x7bparams.id\x7d\x60, _params, body)" ∧
      request.interpolated mirrored = ["id", "id"] ∧
      request.prelude? =
        some "const _params = \x7b 'dry-run': params['dry-run'], n: params.n \x7d;" ∧
      ∃ literal, request.call = "this.httpClient." ++ "put" ++ "<" ++
        ", ".intercalate (types.responseName.getD "any" :: types.bodyName.toList) ++ ">(" ++
        literal ++ argumentText (some "_params") ++ argumentText (some "body") ++ ")" := by
  have hbuilt : ((EndpointTypes.infer mirrored).bind (build mirrored)).toOption.map
      (fun request => (request.call, request.interpolated mirrored, request.prelude?)) =
      some ("this.httpClient.put<any, TMirrorBody>(" ++
          "\x60/$\x7bparams.id\x7d/copy/$\x7bparams.id\x7d\x60, _params, body)",
        ["id", "id"],
        some "const _params = \x7b 'dry-run': params['dry-run'], n: params.n \x7d;") := by
    decide +kernel
  obtain ⟨types, request, htypes, hrequest, hseen⟩ := exists_of_toOption_bind hbuilt
  obtain ⟨hcall, hpath, hprelude⟩ : request.call = _ ∧ request.interpolated mirrored = _ ∧
      request.prelude? = _ := by simpa using hseen
  obtain ⟨literal, -, second, third, hslots, -, -, -, -, -, hsecond, -, -, rfl⟩ :=
    (build_places_params htypes).2 request hrequest
  obtain rfl : second = some "_params" := hsecond (by rw [hprelude]; rfl)
  exact ⟨types, request, htypes, hrequest, hcall, hpath, hprelude, literal, hslots⟩

end Request

end ClientLoom
