import ClientLoom.Proofs.ElementTypes
import ClientLoom.Proofs.HookInputs
import ClientLoom.Proofs.StringLiterals

/-!
# When a query is performed

A query that does not say itself when it is enabled waits for what its request needs.  Of an input
with an object as its example these are the fields whose value does not allow `undefined`, but for the
page; of any other input it is the input as a whole.  A query that needs nothing is not held back.
-/

namespace ClientLoom

open Text (isIdentifier propertyRead stringLiteral)

instance : DecidablePred Json.AllowsUndefined := fun value =>
  decidable_of_iff ((Shape.field "" (Shape.ofJson value)).optional = true) Shape.optional_field_iff

/-- The keys of the entries that do not allow `undefined`, in order and without `skip`. -/
def neededKeys (skip : Option String) (entries : Entries Json) : List String :=
  (entries.filter fun entry => some entry.1 ≠ skip ∧ ¬ entry.2.AllowsUndefined).map Prod.fst

/-- The code reads the property with the key: behind a dot if the key is an identifier, and else in
brackets, as a string literal. -/
inductive ReadsProperty (target key : String) : String → Prop
  | dotted (h : isIdentifier key = true) : ReadsProperty target key (target ++ "." ++ key)
  | bracketed {literal : String} (h : isIdentifier key = false)
      (hliteral : StringLiteral.Denotes literal key) :
      ReadsProperty target key (target ++ "[" ++ literal ++ "]")

/-- What is checked of the input `name` with this example: each needed field of an object, and
anything else as a whole. -/
inductive Checks (skip : Option String) (name : String) : Option Json → List String → Prop
  | absent : Checks skip name none []
  | whole {sample : Json} (h : sample.fields? = none) : Checks skip name (some sample) [name]
  | fields {entries : Entries Json} {codes : List String}
      (h : List.Forall₂ (ReadsProperty name) (neededKeys skip entries) codes) :
      Checks skip name (some (.object entries)) codes

theorem readsProperty_propertyRead (target key : String) :
    ReadsProperty target key (propertyRead target key) := by
  unfold propertyRead
  split_ifs with hkey
  · exact .dotted hkey
  · exact .bracketed (Bool.eq_false_iff.2 hkey) (StringLiteral.denotes_stringLiteral key)

/-! ## Required fields -/

theorem FieldsHaveShape.requiredKeys_eq {types : List (Field TypeNode)} {fields : List (Field Shape)}
    (h : FieldsHaveShape types fields) : requiredKeys types = requiredKeys fields := by
  induction fields generalizing types with
  | nil =>
      cases h
      rfl
  | cons field fields ih =>
      cases h with
      | @cons key optional _ _ _ _ hfirst hrest =>
          have hrest := ih hrest
          cases optional with
          | false => simpa [requiredKeys] using hrest
          | true => simpa [requiredKeys] using hrest

/-- The fields of an example that are required are those that do not allow `undefined`. -/
theorem Shape.requiredKeys_ofFields (entries : Entries Json) :
    requiredKeys (ofFields entries) = neededKeys none entries := by
  have hoptional : ∀ entry : String × Json,
      (!(field entry.1 (ofJson entry.2)).optional) =
        decide (some entry.1 ≠ none ∧ ¬ entry.2.AllowsUndefined) := by
    intro entry
    have hfield : (field entry.1 (ofJson entry.2)).optional = true ↔ entry.2.AllowsUndefined :=
      optional_field_iff
    rw [Bool.eq_iff_iff, decide_eq_true_iff, ← hfield]
    simp
  rw [requiredKeys, ofFields_eq_map, List.filter_map, List.map_map, neededKeys]
  simp only [Function.comp_def, hoptional, key_field]

theorem filter_neededKeys (skip : Option String) (entries : Entries Json) :
    ((neededKeys none entries).filter fun key => some key != skip) = neededKeys skip entries := by
  rw [neededKeys, neededKeys, List.filter_map, List.filter_filter]
  simp [bne, beq_eq_decide]

namespace HookPlan

theorem checks_requiredReads {inferred : Inferred} {sample : Json}
    (h : HasShape inferred.root (Shape.ofJson sample)) (skip : Option String) (name : String) :
    Checks skip name (some sample) (requiredReads skip ⟨name, inferred⟩) := by
  rcases Inferred.rootFields?_cases h with ⟨hsample, hroot⟩ |
    ⟨entries, fields, rfl, hroot, hfields⟩
  · simp only [requiredReads, hroot]
    exact .whole hsample
  · -- The type has the fields of the example, and those that are required are the needed ones.
    simp only [requiredReads, hroot, hfields.requiredKeys_eq, Shape.requiredKeys_ofFields,
      filter_neededKeys]
    refine .fields (List.forall₂_map_right_iff.2 (List.forall₂_same.2 fun key _ => ?_))
    exact readsProperty_propertyRead name key

theorem checks_of_ofSample {inferred : Option Inferred} {sample : Option Json}
    (h : EndpointTypes.OfSample inferred sample) (skip : Option String) (name : String) :
    Checks skip name sample
      ((inferred.map fun type => requiredReads skip ⟨name, type⟩).getD []) := by
  cases h with
  | none => exact .absent
  | some hshape => exact checks_requiredReads hshape skip name

theorem enablement_eq_some_iff {codes : List String} {value : String} :
    enablement codes = some value ↔
      codes ≠ [] ∧ value = "[" ++ ", ".intercalate codes ++ "].every((value) => value != null)" := by
  cases codes with
  | nil => simp [enablement]
  | cons code codes =>
      rw [enablement, List.isEmpty_cons, if_neg Bool.false_ne_true, Option.some.injEq, eq_comm]
      simp

/-- For an endpoint with the types of its own examples, whatever names were taken before, and a query,
paginated or not, that does not set `enabled` itself.  What is checked are, in order, the fields of
the parameters that do not allow `undefined`, other than the page, or the parameters as a whole if
their example is no object, and then the same of the body, which has no page.  The option says that
none of these is missing, and it is left out exactly if there is nothing to check. -/
theorem enabled_checks_needed {endpoint : EndpointSpec} {types : EndpointTypes} {names : TypeNames}
    (htypes : ((EndpointTypes.walk endpoint).run names).1 = .ok types) {fetch : Fetch}
    (hfetch : endpoint.Fetches fetch) (henabled : fetch.enabled = none) (service : ServiceIdent)
    (request : Request) :
    ∃ plan own others, build ⟨service, types, request⟩ endpoint = .ok (some plan) ∧
      Checks fetch.pageKey? "params" endpoint.params own ∧
      Checks none "body" endpoint.body others ∧
      (∀ value, ("enabled", value) ∈ plan.options ↔ own ++ others ≠ [] ∧
        value = "[" ++ ", ".intercalate (own ++ others) ++ "].every((value) => value != null)") ∧
      ("enabled" ∉ plan.options.map Prod.fst ↔ own ++ others = []) := by
  obtain ⟨hparams, hbody⟩ := EndpointTypes.returns_walk_ofSample endpoint names types htypes
  obtain ⟨plan, hbuild, hplan⟩ := exists_plansFetch ⟨service, types, request⟩ hfetch
  have hoption : ∀ value, ("enabled", value) ∈ plan.options ↔ reads types fetch ≠ [] ∧
      value = "[" ++ ", ".intercalate (reads types fetch) ++
        "].every((value) => value != null)" := by
    intro value
    rw [hplan.enabled value, henabled]
    exact enablement_eq_some_iff
  refine ⟨plan, _, _, hbuild, checks_of_ofSample hparams fetch.pageKey? "params",
    checks_of_ofSample hbody none "body", hoption, ?_⟩
  change _ ↔ reads types fetch = []
  constructor
  · intro habsent
    by_contra hne
    exact habsent (List.mem_map_of_mem (f := Prod.fst) ((hoption _).2 ⟨hne, rfl⟩))
  · intro hnil hpresent
    obtain ⟨⟨name, value⟩, hmem, rfl⟩ := List.mem_map.1 hpresent
    exact ((hoption value).1 hmem).1 hnil

/-- A paginated query with a key that has to be quoted, a field that allows `undefined`, and a body
that is no object. -/
def pagedListing : EndpointSpec :=
  { method := .post
    name := "list"
    path := "/"
    params := some (.object [
      ("page", .ofNat 1), ("dry-run", .bool true),
      ("note", .string "<raw>string | undefined</raw>"), ("q", .string "<raw>Query</raw>")])
    body := some (.array [])
    useInfiniteQuery := some (.options
      { pageKey := "page", initialPageParam := .ofNat 0, getNextPageParam := "next" }) }

theorem enabled_checks_needed_pagedListing :
    ∃ types request plan own others, EndpointTypes.infer pagedListing = .ok types ∧
      Request.build pagedListing types = .ok request ∧
      build ⟨.ofKey "todo", types, request⟩ pagedListing = .ok (some plan) ∧
      ("enabled", "[params['dry-run'], params.q, body].every((value) => value != null)") ∈
        plan.options ∧
      Checks (some "page") "params" pagedListing.params own ∧
      Checks none "body" pagedListing.body others ∧
      "[params['dry-run'], params.q, body].every((value) => value != null)" =
        "[" ++ ", ".intercalate (own ++ others) ++ "].every((value) => value != null)" := by
  have hbuilt : ((EndpointTypes.infer pagedListing).bind fun types =>
        Request.build pagedListing types >>= fun request =>
          build ⟨.ofKey "todo", types, request⟩ pagedListing).toOption.map
      (fun plan? => plan?.map fun plan => plan.options.find? fun option => option.1 == "enabled") =
      some (some (some ("enabled",
        "[params['dry-run'], params.q, body].every((value) => value != null)"))) := by
    decide +kernel
  obtain ⟨types, plan?, htypes, hplan?, hseen⟩ := exists_of_toOption_bind hbuilt
  obtain ⟨request, hrequest, hbuild⟩ := bind_eq_ok.1 hplan?
  obtain ⟨plan, own, others, hplan, hown, hothers, henabled, -⟩ :=
    enabled_checks_needed htypes (.infinite (rfl : pagedListing.hook = .ok (.infinite _))) rfl
      (.ofKey "todo") request
  obtain rfl : plan? = some plan := Except.ok.inj (hbuild.symm.trans hplan)
  have hmem := List.mem_of_find?_eq_some (Option.some.inj hseen)
  exact ⟨types, request, plan, own, others, htypes, hrequest, hplan, hmem, hown, hothers,
    ((henabled _).1 hmem).2⟩

end HookPlan

end ClientLoom
