import ClientLoom.Proofs.DeclaredNames

/-!
# Calls on a cache of types

What a call on a cache returns is fixed by the calls before it that succeeded.  A name that was
answered before is answered as it was first; a new name is inferred with the names that the
successful calls with new names have claimed, in their order.  A failed call leaves no trace: the
main statement is `TypeCache.history_eq`.
-/

namespace ClientLoom

/-- A call for the types of an endpoint and what it returned. -/
structure TypeCall where
  endpoint : EndpointSpec
  result : Outcome EndpointTypes

namespace TypeCall

/-- What the earliest successful call for a name returned. -/
def firstTypes? (name : String) (calls : List TypeCall) : Option EndpointTypes :=
  calls.findSome? fun call => if call.endpoint.name = name then call.result.toOption else none

/-- The endpoints of the calls that succeeded and whose name no call before had succeeded with;
`earlier` are the calls in front. -/
def newEndpoints (earlier : List TypeCall) : List TypeCall → List EndpointSpec
  | [] => []
  | call :: rest =>
    if call.result.isOk && (firstTypes? call.endpoint.name earlier).isNone then
      call.endpoint :: newEndpoints (earlier ++ [call]) rest
    else newEndpoints (earlier ++ [call]) rest

/-- The registry that goes through the inference of every new endpoint, in order. -/
def threadedNames (calls : List TypeCall) : TypeNames :=
  (newEndpoints [] calls).foldl (fun names endpoint => ((EndpointTypes.walk endpoint).run names).2)
    {}

/-- What a call for an endpoint has to return after some calls. -/
def expected (earlier : List TypeCall) (endpoint : EndpointSpec) : Outcome EndpointTypes :=
  match firstTypes? endpoint.name earlier with
  | some types => .ok types
  | none => ((EndpointTypes.walk endpoint).run (threadedNames earlier)).1

@[simp] theorem firstTypes?_snoc (name : String) (calls : List TypeCall) (call : TypeCall) :
    firstTypes? name (calls ++ [call]) =
      (firstTypes? name calls).or
        (if call.endpoint.name = name then call.result.toOption else none) := by
  simp [firstTypes?, List.findSome?_append]

theorem newEndpoints_append (earlier front back : List TypeCall) :
    newEndpoints earlier (front ++ back) =
      newEndpoints earlier front ++ newEndpoints (earlier ++ front) back := by
  induction front generalizing earlier with
  | nil => simp [newEndpoints]
  | cons call front ih =>
      rw [List.cons_append, newEndpoints, newEndpoints, ih, List.append_assoc,
        List.singleton_append]
      split
      · rw [List.cons_append]
      · rfl

theorem threadedNames_snoc_new {calls : List TypeCall} {call : TypeCall} {types : EndpointTypes}
    (hresult : call.result = .ok types) (hnew : firstTypes? call.endpoint.name calls = none) :
    threadedNames (calls ++ [call]) =
      ((EndpointTypes.walk call.endpoint).run (threadedNames calls)).2 := by
  simp [threadedNames, newEndpoints_append, newEndpoints, hresult, hnew, Except.isOk, Except.toBool]

theorem threadedNames_snoc_known {calls : List TypeCall} {call : TypeCall} {types : EndpointTypes}
    (hknown : firstTypes? call.endpoint.name calls = some types) :
    threadedNames (calls ++ [call]) = threadedNames calls := by
  simp [threadedNames, newEndpoints_append, newEndpoints, hknown]

theorem threadedNames_snoc_failed {calls : List TypeCall} {call : TypeCall} {e : Error}
    (hresult : call.result = .error e) : threadedNames (calls ++ [call]) = threadedNames calls := by
  simp [threadedNames, newEndpoints_append, newEndpoints, hresult, Except.isOk, Except.toBool]

end TypeCall

namespace TypeCache

open TypeCall (firstTypes? newEndpoints threadedNames expected)

/-- Calls one after the other on a cache, each with what it returned. -/
def history (cache : TypeCache) : List EndpointSpec → List TypeCall
  | [] => []
  | endpoint :: rest =>
    ⟨endpoint, (cache.typesFor endpoint).1⟩ :: history (cache.typesFor endpoint).2 rest

/-! ## One call -/

theorem typesFor_known {cache : TypeCache} {endpoint : EndpointSpec} {types : EndpointTypes}
    (h : cache.cached.get? endpoint.name = some types) :
    cache.typesFor endpoint = (.ok types, cache) := by
  simp [typesFor, h]

theorem typesFor_failed {cache : TypeCache} {endpoint : EndpointSpec} {e : Error}
    (h : cache.cached.get? endpoint.name = none)
    (hwalk : ((EndpointTypes.walk endpoint).run cache.names).1 = .error e) :
    cache.typesFor endpoint = (.error e, cache) := by
  cases hrun : (EndpointTypes.walk endpoint).run cache.names with
  | mk outcome names =>
      rw [hrun] at hwalk
      obtain rfl : outcome = .error e := hwalk
      simp [typesFor, h, hrun]

theorem typesFor_new {cache : TypeCache} {endpoint : EndpointSpec} {types : EndpointTypes}
    (h : cache.cached.get? endpoint.name = none)
    (hwalk : ((EndpointTypes.walk endpoint).run cache.names).1 = .ok types) :
    cache.typesFor endpoint =
      (.ok types, ⟨cache.cached ++ [(endpoint.name, types)],
        ((EndpointTypes.walk endpoint).run cache.names).2⟩) := by
  cases hrun : (EndpointTypes.walk endpoint).run cache.names with
  | mk outcome names =>
      rw [hrun] at hwalk
      obtain rfl : outcome = .ok types := hwalk
      simp [typesFor, h, hrun, Entries.put_of_get?_eq_none h]

/-- A call that fails leaves the cache and the registry as they were. -/
theorem typesFor_eq_of_error {cache : TypeCache} {endpoint : EndpointSpec} {e : Error}
    (h : (cache.typesFor endpoint).1 = .error e) : (cache.typesFor endpoint).2 = cache := by
  cases hget : cache.cached.get? endpoint.name with
  | some types => rw [typesFor_known hget]
  | none =>
      cases hwalk : ((EndpointTypes.walk endpoint).run cache.names).1 with
      | error e' => rw [typesFor_failed hget hwalk]
      | ok types =>
          rw [typesFor_new hget hwalk] at h
          cases h

/-! ## What a cache knows of its history -/

/-- The cache answers for the calls that were made: it holds the first answers for all names, and
its registry has gone through the calls with new names. -/
structure Records (cache : TypeCache) (calls : List TypeCall) : Prop where
  get? : ∀ name, cache.cached.get? name = firstTypes? name calls
  names : cache.names = threadedNames calls

theorem records_empty : Records {} [] :=
  ⟨fun _ => rfl, rfl⟩

theorem Records.fst_typesFor {cache : TypeCache} {calls : List TypeCall}
    (h : cache.Records calls) (endpoint : EndpointSpec) :
    (cache.typesFor endpoint).1 = expected calls endpoint := by
  unfold expected
  cases hknown : firstTypes? endpoint.name calls with
  | some types => rw [typesFor_known ((h.get? _).trans hknown)]
  | none =>
      have hget := (h.get? endpoint.name).trans hknown
      rw [← h.names]
      cases hwalk : ((EndpointTypes.walk endpoint).run cache.names).1 with
      | error e => rw [typesFor_failed hget hwalk]
      | ok types => rw [typesFor_new hget hwalk]

/-- One more call: its answer is added if the name is new, and nothing changes otherwise. -/
theorem Records.snoc {cache : TypeCache} {calls : List TypeCall} (h : cache.Records calls)
    (endpoint : EndpointSpec) :
    (cache.typesFor endpoint).2.Records (calls ++ [⟨endpoint, (cache.typesFor endpoint).1⟩]) := by
  cases hget : cache.cached.get? endpoint.name with
  | some types =>
      have hknown := (h.get? endpoint.name).symm.trans hget
      rw [typesFor_known hget]
      refine ⟨fun name => ?_, ?_⟩
      · rw [TypeCall.firstTypes?_snoc, ← h.get?]
        by_cases hname : endpoint.name = name
        · subst hname
          rw [hget]
          rfl
        · rw [if_neg hname, Option.or_none]
      · rw [TypeCall.threadedNames_snoc_known hknown, h.names]
  | none =>
      have hnew := (h.get? endpoint.name).symm.trans hget
      cases hwalk : ((EndpointTypes.walk endpoint).run cache.names).1 with
      | error e =>
          rw [typesFor_failed hget hwalk]
          refine ⟨fun name => ?_, ?_⟩
          · rw [TypeCall.firstTypes?_snoc, ← h.get?]
            simp [Except.toOption]
          · rw [TypeCall.threadedNames_snoc_failed rfl, h.names]
      | ok types =>
          rw [typesFor_new hget hwalk]
          refine ⟨fun name => ?_, ?_⟩
          · rw [TypeCall.firstTypes?_snoc, ← h.get?, Entries.get?_snoc]
            rfl
          · rw [TypeCall.threadedNames_snoc_new rfl hnew, h.names]

/-! ## Whole histories -/

/-- Behind the calls that a cache records, every call returns what is expected after the calls in
front of it. -/
theorem Records.getElem?_history {cache : TypeCache} {calls : List TypeCall}
    (h : cache.Records calls) (endpoints : List EndpointSpec) (k : Nat) :
    (cache.history endpoints)[k]? = endpoints[k]?.map fun endpoint =>
      ⟨endpoint, expected (calls ++ (cache.history endpoints).take k) endpoint⟩ := by
  induction endpoints generalizing cache calls k with
  | nil => simp [history]
  | cons endpoint endpoints ih =>
      cases k with
      | zero => simp [history, h.fst_typesFor endpoint]
      | succ k =>
          simp only [history, List.getElem?_cons_succ, List.take_succ_cons]
          rw [ih (h.snoc endpoint) k, List.append_assoc, List.singleton_append]

theorem history_succeeded (cache : TypeCache) (endpoints : List EndpointSpec) :
    cache.history (((cache.history endpoints).filter (·.result.isOk)).map TypeCall.endpoint) =
      (cache.history endpoints).filter (·.result.isOk) := by
  induction endpoints generalizing cache with
  | nil => rfl
  | cons endpoint endpoints ih =>
      cases hresult : (cache.typesFor endpoint).1 with
      | error e =>
          -- The call that is left out has not changed the cache for those behind it.
          have hdropped : (cache.history (endpoint :: endpoints)).filter (·.result.isOk) =
              (cache.history endpoints).filter (·.result.isOk) := by
            simp [history, hresult, typesFor_eq_of_error hresult, Except.isOk, Except.toBool]
          rw [hdropped]
          exact ih cache
      | ok types =>
          have hkept : (cache.history (endpoint :: endpoints)).filter (·.result.isOk) =
              ⟨endpoint, .ok types⟩ ::
                ((cache.typesFor endpoint).2.history endpoints).filter (·.result.isOk) := by
            simp [history, hresult, Except.isOk, Except.toBool]
          rw [hkept, List.map_cons, history, hresult, ih]

/-- In every sequence of calls on a fresh cache, each call returns what is expected after the calls
in front of it.  A call that fails, on whatever cache, leaves it as it was, and without the failed
calls the others return the same. -/
theorem history_eq (endpoints : List EndpointSpec) :
    (∀ k : Nat, (history {} endpoints)[k]? = endpoints[k]?.map fun endpoint =>
      ⟨endpoint, expected ((history {} endpoints).take k) endpoint⟩) ∧
    (∀ (cache : TypeCache) (endpoint : EndpointSpec),
      (cache.typesFor endpoint).1.isOk = false → (cache.typesFor endpoint).2 = cache) ∧
    history {} (((history {} endpoints).filter (·.result.isOk)).map TypeCall.endpoint) =
      (history {} endpoints).filter (·.result.isOk) := by
  refine ⟨records_empty.getElem?_history endpoints, fun cache endpoint hfailed => ?_,
    history_succeeded {} endpoints⟩
  cases hresult : (cache.typesFor endpoint).1 with
  | error e => exact typesFor_eq_of_error hresult
  | ok types =>
      rw [hresult] at hfailed
      cases hfailed

end TypeCache

end ClientLoom
