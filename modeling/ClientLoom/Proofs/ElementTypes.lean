import ClientLoom.Proofs.ExampleShapes
import ClientLoom.Proofs.TypeShapes
import ClientLoom.Proofs.UnionAlternatives

/-!
# The type of many objects

An array of objects has one object type for all its elements.  Its fields are the keys that occur in
any of them, in the order of the first occurrences, each with the type of the first value; a field is
optional if some element lacks the key, or if the first value has a raw tag that allows `undefined`.
-/

namespace ClientLoom

open Text (nameSegment)
open Walk (Returns returns_true returns_pure)

/-! ## Types of fields -/

/-- The value has a raw tag with an alternative `undefined` outside brackets and quotes. -/
def Json.AllowsUndefined (value : Json) : Prop :=
  ∃ payload, value.HasRawTag payload ∧ undefinedChars ∈ alternatives payload.toList

namespace Shape

theorem optional_field_iff {key : String} {value : Json} :
    (field key (ofJson value)).optional = true ↔ value.AllowsUndefined := by
  by_cases hraw : ∃ payload, value.HasRawTag payload
  · obtain ⟨payload, hpayload⟩ := hraw
    rw [field_of_hasRawTag hpayload]
    constructor
    · intro h
      exact ⟨payload, hpayload, optionalLaw_snd_iff.1 h⟩
    · rintro ⟨other, hother, hmem⟩
      -- A text has one raw tag at most, so the payload is the same.
      have hsame := (ofJson_eq_raw_iff.2 hpayload).symm.trans (ofJson_eq_raw_iff.2 hother)
      obtain rfl := Leaf.raw.inj (Shape.text.inj hsame)
      exact optionalLaw_snd_iff.2 hmem
  · rw [field_of_not_hasRawTag (not_exists.1 hraw)]
    constructor
    · intro h
      cases h
    · rintro ⟨payload, hpayload, -⟩
      exact absurd ⟨payload, hpayload⟩ hraw

end Shape

/-- A walk over the shape returns the type, with some registry. -/
def Shape.WalkedTo (name place : String) (shape : Shape) (type : TypeNode) : Prop :=
  ∃ names decls, ((shape.declare name place).run names).1 = .ok (type, decls)

/-- The type of a field is that of the value: for a raw tag what the optional law leaves of the
payload, and else what a walk over the value returns.  Objects in it are named behind `name`, and
`place` is the place of the value in messages. -/
inductive TypedFrom (name place : String) (value : Json) : TypeNode → Prop
  | raw {payload : String} (h : value.HasRawTag payload) :
      TypedFrom name place value (.raw (optionalLaw payload).1)
  | walked {type : TypeNode} (hraw : ∀ payload, ¬ value.HasRawTag payload)
      (h : (Shape.ofJson value).WalkedTo name place type) : TypedFrom name place value type

theorem Shape.WalkedTo.typedFrom {name place key : String} {value : Json} {type : TypeNode}
    (h : (Shape.field key (Shape.ofJson value)).type.WalkedTo name place type) :
    TypedFrom name place value type := by
  by_cases hraw : ∃ payload, value.HasRawTag payload
  · obtain ⟨payload, hpayload⟩ := hraw
    rw [Shape.field_of_hasRawTag hpayload] at h
    obtain ⟨names, decls, hrun⟩ := h
    rw [Shape.declare] at hrun
    obtain ⟨rfl, -⟩ := Prod.mk.inj (Except.ok.inj hrun)
    exact .raw hpayload
  · have hnone := not_exists.1 hraw
    rw [Shape.field_of_not_hasRawTag hnone] at h
    exact .walked hnone h

/-- A field of an object type has the key of a field of the shape, is optional if that is, and has
the type of a walk over it. -/
def Shape.FieldWalkedTo (name place : String) (type : Field TypeNode) (member : Field Shape) :
    Prop :=
  type.key = member.key ∧ type.optional = member.optional ∧
    member.type.WalkedTo (name ++ nameSegment member.key) (place ++ "." ++ member.key) type.type

theorem Shape.returns_fieldWalkedTo (name place : String) (members : List (Field Shape)) :
    Returns (Shape.declareFields name place members) fun result =>
      List.Forall₂ (FieldWalkedTo name place) result.1 members := by
  induction members with
  | nil =>
      rw [declareFields]
      exact returns_pure .nil
  | cons member members ih =>
      obtain ⟨key, optional, shape⟩ := member
      rw [declareFields]
      have hwalked : Returns (shape.declare (name ++ nameSegment key) (place ++ "." ++ key))
          fun result => shape.WalkedTo (name ++ nameSegment key) (place ++ "." ++ key) result.1 :=
        fun names result hresult => ⟨names, result.2, hresult⟩
      refine hwalked.bind fun first hfirst => ?_
      exact ih.bind fun others hothers => returns_pure (.cons ⟨rfl, rfl, hfirst⟩ hothers)

theorem Shape.returns_object (name place : String) (members : List (Field Shape)) :
    Returns ((Shape.object members).declare name place) fun result =>
      ∃ element fields, result.1 = .object element fields ∧
        List.Forall₂ (FieldWalkedTo element place) fields members := by
  rw [declare]
  refine (returns_true _).bind fun element _ => ?_
  refine (returns_fieldWalkedTo element place members).bind fun result hresult => ?_
  exact returns_pure ⟨element, result.1, rfl, hresult⟩

/-! ## One type for many objects -/

/-- Some object lacks the key. -/
def Lacked (objects : List (Entries Json)) (key : String) : Prop :=
  ∃ entries ∈ objects, key ∉ entries.keys

instance (objects : List (Entries Json)) : DecidablePred (Lacked objects) := fun key =>
  inferInstanceAs (Decidable (∃ entries ∈ objects, key ∉ entries.keys))

theorem Shape.lacking_iff {objects : List (Entries Json)} {key : String} :
    lacking (objects.map ofFields) key = true ↔ Lacked objects key := by
  rw [← not_iff_not, Bool.not_eq_true, lacking_eq_false, Lacked]
  simp only [List.forall_mem_map, map_key_ofFields, not_exists, not_and, not_not]

/-- The fields of the object type `name` for many objects at a place. -/
structure ElementFields (objects : List (Entries Json)) (name place : String)
    (fields : List (Field TypeNode)) : Prop where
  /-- Every key that occurs, in the order of the first occurrences. -/
  keys : fields.map Field.key = (objects.flatMap Entries.keys).eraseDups
  distinct : (fields.map Field.key).Nodup
  /-- The first object that has the key decides, and the others only whether the field is optional. -/
  typed : ∀ field ∈ fields, ∃ value, objects.findSome? (Entries.get? field.key) = some value ∧
    TypedFrom (name ++ nameSegment field.key) (place ++ "." ++ field.key) value field.type ∧
    (field.optional = true ↔ Lacked objects field.key ∨ value.AllowsUndefined)

theorem nodup_eraseDups (keys : List String) : keys.eraseDups.Nodup := by
  match keys with
  | [] => exact .nil
  | key :: rest =>
      rw [List.eraseDups_cons, List.nodup_cons, List.mem_eraseDups]
      refine ⟨fun hmem => ?_, nodup_eraseDups _⟩
      simpa using (List.mem_filter.1 hmem).2
termination_by keys.length
decreasing_by exact Nat.lt_succ_of_le (List.length_filter_le _ rest)

theorem elementFields_of_walked {objects : List (Entries Json)} {name place : String}
    {fields : List (Field TypeNode)}
    (h : List.Forall₂ (Shape.FieldWalkedTo name place) fields
      (Shape.merge (objects.map Shape.ofFields))) : ElementFields objects name place fields := by
  have hkeys : fields.map Field.key = (objects.flatMap Entries.keys).eraseDups := by
    have hsame : List.Forall₂ (· = ·) (fields.map Field.key)
        ((Shape.merge (objects.map Shape.ofFields)).map Field.key) := by
      rw [List.forall₂_map_left_iff, List.forall₂_map_right_iff]
      exact h.imp fun field member hwalked => hwalked.1
    rw [List.forall₂_eq_eq_eq] at hsame
    rw [hsame, Shape.map_key_merge_ofFields]
  refine ⟨hkeys, hkeys ▸ nodup_eraseDups _, fun field hfield => ?_⟩
  obtain ⟨merged, hmerged, hkey, hoptional, hwalked⟩ := exists_of_forall₂ h hfield
  obtain ⟨value, hvalue, htype, hmergedOptional⟩ := Shape.exists_of_mem_merge hmerged
  rw [htype, ← hkey] at hwalked
  rw [Entries.get?_flatten, ← hkey] at hvalue
  refine ⟨value, hvalue, hwalked.typedFrom, ?_⟩
  rw [hoptional, hmergedOptional, Bool.or_eq_true, Shape.optional_field_iff, Shape.lacking_iff,
    hkey, or_comm]

/-- The type of an array of these objects at a place. -/
def ArrayOfObjects (objects : List (Entries Json)) (place : String) (type : TypeNode) : Prop :=
  ∃ name fields, type = .array (.object name fields) ∧
    ElementFields objects name (place ++ "[]") fields

theorem Shape.returns_arrayOfObjects {objects : List (Entries Json)} (hne : objects ≠ [])
    (name place : String) :
    Returns ((Shape.ofJson (.array (objects.map .object))).declare name place) fun result =>
      ArrayOfObjects objects place result.1 := by
  rw [ofJson_objects hne, declare]
  refine (returns_object _ _ _).bind fun result hresult => ?_
  obtain ⟨element, fields, htype, hfields⟩ := hresult
  exact returns_pure ⟨element, fields, congrArg TypeNode.array htype,
    elementFields_of_walked hfields⟩

theorem Inferred.returns_arrayOfObjects {objects : List (Entries Json)} (hne : objects ≠ [])
    (declared place : String) :
    Returns (Inferred.walk (.array (objects.map .object)) declared place) fun inferred =>
      ArrayOfObjects objects place inferred.root := by
  rw [Inferred.walk]
  refine (returns_true _).bind fun name _ => ?_
  split
  · rename_i fields hshape
    rw [Shape.ofJson_objects hne] at hshape
    cases hshape
  · exact (Shape.returns_arrayOfObjects hne name place).bind fun result hresult =>
      returns_pure hresult

/-- Reordering objects changes neither the keys of their type nor those that some object lacks. -/
theorem ElementFields.perm {objects reordered : List (Entries Json)} {name place name' place' : String}
    {fields fields' : List (Field TypeNode)} (h : ElementFields objects name place fields)
    (h' : ElementFields reordered name' place' fields') (hperm : reordered.Perm objects) :
    (fields'.map Field.key).Perm (fields.map Field.key) ∧
      ((fields'.map Field.key).filter (Lacked reordered ·)).Perm
        ((fields.map Field.key).filter (Lacked objects ·)) := by
  have hkeys : (fields'.map Field.key).Perm (fields.map Field.key) := by
    rw [List.perm_ext_iff_of_nodup h'.distinct h.distinct, h'.keys, h.keys]
    intro key
    rw [List.mem_eraseDups, List.mem_eraseDups]
    exact (hperm.flatMap_right Entries.keys).mem_iff
  have hlacked : ∀ key, Lacked reordered key ↔ Lacked objects key := fun key =>
    exists_congr fun entries => and_congr_left fun _ => hperm.mem_iff
  refine ⟨hkeys, ?_⟩
  have hsame : (fun key => decide (Lacked reordered key)) = fun key => decide (Lacked objects key) :=
    funext fun key => decide_eq_decide.2 (hlacked key)
  rw [hsame]
  exact hkeys.filter _

/-- Wherever an array of objects stands in an example, as its root or inside, a type that inference
returns for it is an array of one object type.  Its fields are the keys that occur in any object, each
once and in the order of the first occurrences, with the type of the first value; a field is optional
exactly if some object lacks the key or the first value allows `undefined`.  The order of the objects
decides neither which keys there are nor which of them some object lacks. -/
theorem Inferred.array_of_objects {objects : List (Entries Json)} (hne : objects ≠ []) :
    (∀ declared place names inferred,
      ((Inferred.walk (.array (objects.map .object)) declared place).run names).1 = .ok inferred →
        ∃ name fields, inferred.root = .array (.object name fields) ∧
          ElementFields objects name (place ++ "[]") fields) ∧
    (∀ base place names type decls,
      (((Shape.ofJson (.array (objects.map .object))).declare base place).run names).1 =
          .ok (type, decls) →
        ∃ name fields, type = .array (.object name fields) ∧
          ElementFields objects name (place ++ "[]") fields) ∧
    ∀ reordered : List (Entries Json), reordered.Perm objects →
      ∀ name place fields name' place' fields', ElementFields objects name place fields →
        ElementFields reordered name' place' fields' →
          (fields'.map Field.key).Perm (fields.map Field.key) ∧
          ((fields'.map Field.key).filter (Lacked reordered ·)).Perm
            ((fields.map Field.key).filter (Lacked objects ·)) := by
  refine ⟨fun declared place names inferred h => ?_, fun base place names type decls h => ?_, ?_⟩
  · exact Inferred.returns_arrayOfObjects hne declared place names inferred h
  · exact Shape.returns_arrayOfObjects hne base place names (type, decls) h
  · intro reordered hperm name place fields name' place' fields' hfields hfields'
    exact hfields.perm hfields' hperm

/-- Objects that share some keys, with an optional value and a key that comes late. -/
def overlappingRows : List (Entries Json) :=
  [[("id", .ofNat 1), ("note", .string "<raw>string | undefined</raw>")],
    [("note", .string "x"), ("id", .string "<raw>Id</raw>"), ("owner", .object [("id", .null)])]]

theorem Inferred.array_of_objects_overlappingRows :
    ∃ inferred name fields,
      Inferred.infer (.array (overlappingRows.map .object)) "TRows" "rows" = .ok inferred ∧
      inferred.root = .array (.object name fields) ∧
      ElementFields overlappingRows name "rows[]" fields ∧
      fields.map Field.key = ["id", "note", "owner"] ∧ requiredKeys fields = ["id"] := by
  obtain ⟨decls, hinfer⟩ : ∃ decls,
      Inferred.infer (.array (overlappingRows.map .object)) "TRows" "rows" =
        .ok ⟨"TRows", .array (.object "TRowsItem" [⟨"id", false, .primitive .number⟩,
          ⟨"note", true, .raw "string"⟩,
          ⟨"owner", true, .object "TRowsItemOwner" [⟨"id", false, .any⟩]⟩]), decls⟩ :=
    ⟨_, rfl⟩
  obtain ⟨hroot, -, -⟩ := Inferred.array_of_objects (by decide : overlappingRows ≠ [])
  obtain ⟨name, fields, htype, hfields⟩ := hroot "TRows" "rows" {} _ hinfer
  have hkeys := hfields.keys
  refine ⟨_, name, fields, hinfer, htype, hfields, ?_, ?_⟩
  · rw [hkeys]
    rfl
  · obtain ⟨-, rfl⟩ := TypeNode.object.inj (TypeNode.array.inj htype)
    rfl

end ClientLoom
