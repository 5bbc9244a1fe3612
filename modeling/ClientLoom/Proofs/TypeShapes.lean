import ClientLoom.Proofs.DeclaredTypes
import ClientLoom.Proofs.ExampleShapes

/-!
# Types and the shapes they come from

Inference gives a type of the shape of the example: the shape, with names for its objects.  It fails
only at a text with a tag that has no meaning, and its error names the tag and the place of the text.
-/

namespace ClientLoom

mutual

/-- The type is that of the shape, with names for its objects. -/
inductive HasShape : TypeNode → Shape → Prop
  | null : HasShape .any .null
  | boolean : HasShape (.primitive .boolean) .boolean
  | number : HasShape (.primitive .number) .number
  | text {leaf : Leaf} {field : String} {type : TypeNode} (h : leaf.type field = .ok type) :
      HasShape type (.text leaf)
  | emptyArray : HasShape (.array .any) .emptyArray
  | primitives (kinds : List Primitive) : HasShape (.ofKinds kinds) (.primitives kinds)
  | array {type : TypeNode} {shape : Shape} (h : HasShape type shape) :
      HasShape (.array type) (.array shape)
  | object {name : String} {types : List (Field TypeNode)} {fields : List (Field Shape)}
      (h : FieldsHaveShape types fields) : HasShape (.object name types) (.object fields)

/-- The fields have the same keys, and types of the shapes. -/
inductive FieldsHaveShape : List (Field TypeNode) → List (Field Shape) → Prop
  | nil : FieldsHaveShape [] []
  | cons {key : String} {optional : Bool} {type : TypeNode} {shape : Shape}
      {types : List (Field TypeNode)} {fields : List (Field Shape)} (hfirst : HasShape type shape)
      (hrest : FieldsHaveShape types fields) :
      FieldsHaveShape (⟨key, optional, type⟩ :: types) (⟨key, optional, shape⟩ :: fields)

end

theorem FieldsHaveShape.map_key {types : List (Field TypeNode)} {fields : List (Field Shape)}
    (h : FieldsHaveShape types fields) : types.map Field.key = fields.map Field.key := by
  induction fields generalizing types with
  | nil =>
      cases h
      rfl
  | cons field fields ih =>
      cases h with
      | cons hfirst hrest => rw [List.map_cons, List.map_cons, ih hrest]

/-- Each field comes from a field of the shape. -/
theorem FieldsHaveShape.exists_field {types : List (Field TypeNode)} {fields : List (Field Shape)}
    (h : FieldsHaveShape types fields) {type : Field TypeNode} (htype : type ∈ types) :
    ∃ field ∈ fields, type.key = field.key ∧ type.optional = field.optional ∧
      HasShape type.type field.type := by
  induction fields generalizing types with
  | nil =>
      cases h
      cases htype
  | cons field fields ih =>
      cases h with
      | cons hfirst hrest =>
          rcases List.mem_cons.1 htype with rfl | htype
          · exact ⟨_, List.mem_cons_self, rfl, rfl, hfirst⟩
          · obtain ⟨found, hfound, hsame⟩ := ih hrest htype
            exact ⟨found, List.mem_cons_of_mem _ hfound, hsame⟩

/-! ## What inference returns -/

open Walk (Returns returns_true returns_pure)

namespace Walk

variable {α : Type}

theorem Returns.and {walk : Walk α} {post post' : α → Prop} (h : Returns walk post)
    (h' : Returns walk post') : Returns walk fun result => post result ∧ post' result :=
  fun names result hresult => ⟨h names result hresult, h' names result hresult⟩

theorem returns_liftExcept {post : α → Prop} {outcome : Except Error α}
    (h : ∀ result, outcome = .ok result → post result) : Returns (liftExcept outcome) post := by
  cases outcome with
  | error e =>
      intro names result hresult
      cases hresult
  | ok result => exact returns_pure (h result rfl)

end Walk

namespace Shape

mutual

theorem returns_hasShape (name field : String) (shape : Shape) :
    Returns (shape.declare name field) fun result => HasShape result.1 shape := by
  match shape with
  | .null =>
      rw [declare]
      exact returns_pure .null
  | .boolean =>
      rw [declare]
      exact returns_pure .boolean
  | .number =>
      rw [declare]
      exact returns_pure .number
  | .emptyArray =>
      rw [declare]
      exact returns_pure .emptyArray
  | .primitives kinds =>
      rw [declare]
      exact returns_pure (.primitives kinds)
  | .text leaf =>
      rw [declare]
      exact (Walk.returns_liftExcept fun _ htype => htype).bind fun type htype =>
        returns_pure (.text htype)
  | .array element =>
      rw [declare]
      exact (returns_hasShape _ _ element).bind fun result hresult =>
        returns_pure (.array hresult)
  | .object fields =>
      rw [declare]
      refine (returns_true _).bind fun name' _ => ?_
      exact (returns_fieldsHaveShape name' field fields).bind fun result hresult =>
        returns_pure (.object hresult)

theorem returns_fieldsHaveShape (name field : String) (fields : List (Field Shape)) :
    Returns (declareFields name field fields) fun result => FieldsHaveShape result.1 fields := by
  match fields with
  | [] =>
      rw [declareFields]
      exact returns_pure .nil
  | ⟨key, optional, shape⟩ :: rest =>
      rw [declareFields]
      refine (returns_hasShape _ _ shape).bind fun first hfirst => ?_
      exact (returns_fieldsHaveShape name field rest).bind fun others hothers =>
        returns_pure (.cons hfirst hothers)

end

end Shape

theorem Inferred.returns_hasShape (sample : Json) (declared field : String) :
    Returns (Inferred.walk sample declared field) fun inferred =>
      HasShape inferred.root (Shape.ofJson sample) := by
  rw [Inferred.walk]
  refine (returns_true _).bind fun name _ => ?_
  split
  · rename_i fields hshape
    rw [hshape]
    exact (Shape.returns_fieldsHaveShape name field fields).bind fun result hresult =>
      returns_pure (.object hresult)
  · exact (Shape.returns_hasShape name field _).bind fun result hresult => returns_pure hresult

/-! ## Where inference fails -/

namespace Walk

/-- Whatever the registry, an error of the walk has the property. -/
def Throws {α : Type} (walk : Walk α) (post : Error → Prop) : Prop :=
  ∀ (names : TypeNames) (e : Error), (walk.run names).1 = .error e → post e

variable {α β : Type} {post : Error → Prop}

theorem throws_pure (result : α) : Throws (pure result : Walk α) post := by
  intro names e h
  cases h

theorem throws_claim (base : String) : Throws (Walk.claim base) post := by
  intro names e h
  cases h

theorem throws_liftExcept {outcome : Except Error α} (h : ∀ e, outcome = .error e → post e) :
    Throws (liftExcept outcome) post := by
  cases outcome with
  | error e =>
      intro names e' he
      obtain rfl := Except.error.inj he
      exact h e rfl
  | ok result => exact throws_pure result

theorem Throws.mono {walk : Walk α} {weaker : Error → Prop} (h : Throws walk post)
    (hpost : ∀ e, post e → weaker e) : Throws walk weaker :=
  fun names e he => hpost e (h names e he)

theorem Throws.bind {walk : Walk α} {next : α → Walk β} (hwalk : Throws walk post)
    (hnext : ∀ result, Throws (next result) post) : Throws (walk >>= next) post := by
  intro names e he
  rw [run_bind] at he
  cases houtcome : (walk.run names).1 with
  | error e' =>
      rw [houtcome] at he
      obtain rfl := Except.error.inj he
      exact hwalk names e' houtcome
  | ok result =>
      rw [houtcome] at he
      exact hnext result _ e he

end Walk

open Walk (Throws throws_pure throws_claim throws_liftExcept)

/-- A text has no type only for a tag of a kind without meaning. -/
theorem Leaf.of_type_eq_error {leaf : Leaf} {field : String} {e : Error}
    (h : leaf.type field = .error e) :
    ∃ kind, leaf = .tagged kind ∧ (∀ known : TagKind, kind ≠ known.name) ∧
      e = .unsupportedTag kind field := by
  cases leaf with
  | plain | raw payload => cases h
  | tagged kind =>
      rcases bind_eq_error.1 h with hkind | ⟨known, -, htype⟩
      · obtain ⟨hunknown, rfl⟩ := TagKind.parse_eq_error_iff.1 hkind
        exact ⟨kind, rfl, hunknown, rfl⟩
      · cases htype

namespace Shape

mutual

/-- The texts in a shape that a walk over it meets, with their places. -/
def leaves (field : String) : Shape → List (String × Leaf)
  | .text leaf => [(field, leaf)]
  | .array element => element.leaves (field ++ "[]")
  | .object fields => fieldLeaves field fields
  | .null | .boolean | .number | .emptyArray | .primitives _ => []

/-- The texts in the shapes of fields. -/
def fieldLeaves (field : String) : List (Field Shape) → List (String × Leaf)
  | [] => []
  | ⟨key, _, shape⟩ :: rest => shape.leaves (field ++ "." ++ key) ++ fieldLeaves field rest

end

@[simp] theorem mem_fieldLeaves {field : String} {fields : List (Field Shape)}
    {found : String × Leaf} :
    found ∈ fieldLeaves field fields ↔
      ∃ member ∈ fields, found ∈ member.type.leaves (field ++ "." ++ member.key) := by
  induction fields with
  | nil => simp [fieldLeaves]
  | cons member fields ih => simp [fieldLeaves, ih]

/-- The error is that of a text among those given whose tag has no meaning. -/
def UnknownAmong (texts : List (String × Leaf)) (e : Error) : Prop :=
  ∃ place kind, (place, Leaf.tagged kind) ∈ texts ∧ (∀ known : TagKind, kind ≠ known.name) ∧
    e = .unsupportedTag kind place

theorem UnknownAmong.mono {texts more : List (String × Leaf)} {e : Error} (h : UnknownAmong texts e)
    (hsubset : texts ⊆ more) : UnknownAmong more e := by
  obtain ⟨place, kind, hmem, he⟩ := h
  exact ⟨place, kind, hsubset hmem, he⟩

mutual

theorem throws_declare (name field : String) (shape : Shape) :
    Throws (shape.declare name field) (UnknownAmong (shape.leaves field)) := by
  match shape with
  | .null | .boolean | .number | .emptyArray | .primitives _ =>
      rw [declare]
      exact throws_pure _
  | .text leaf =>
      rw [declare]
      refine (throws_liftExcept fun e he => ?_).bind fun type => throws_pure _
      obtain ⟨kind, rfl, hunknown, rfl⟩ := Leaf.of_type_eq_error he
      exact ⟨field, kind, by simp [leaves], hunknown, rfl⟩
  | .array element =>
      rw [declare, leaves]
      exact (throws_declare _ _ element).bind fun result => throws_pure _
  | .object fields =>
      rw [declare, leaves]
      refine (throws_claim name).bind fun name' => ?_
      exact (throws_declareFields name' field fields).bind fun result => throws_pure _

theorem throws_declareFields (name field : String) (fields : List (Field Shape)) :
    Throws (declareFields name field fields) (UnknownAmong (fieldLeaves field fields)) := by
  match fields with
  | [] =>
      rw [declareFields]
      exact throws_pure _
  | ⟨key, optional, shape⟩ :: rest =>
      rw [declareFields, fieldLeaves]
      have hfirst := (throws_declare (name ++ Text.nameSegment key) (field ++ "." ++ key) shape).mono
        fun e he => he.mono (List.subset_append_left _ (fieldLeaves field rest))
      have hrest := (throws_declareFields name field rest).mono
        fun e he => he.mono (List.subset_append_right (shape.leaves (field ++ "." ++ key)) _)
      exact hfirst.bind fun result => hrest.bind fun others => throws_pure _

end

end Shape

theorem Inferred.throws_walk (sample : Json) (declared field : String) :
    Throws (Inferred.walk sample declared field)
      (Shape.UnknownAmong ((Shape.ofJson sample).leaves field)) := by
  rw [Inferred.walk]
  refine (throws_claim declared).bind fun name => ?_
  split
  · rename_i fields hshape
    rw [hshape, Shape.leaves]
    exact (Shape.throws_declareFields name field fields).bind fun result => throws_pure _
  · exact (Shape.throws_declare name field _).bind fun result => throws_pure _

end ClientLoom
