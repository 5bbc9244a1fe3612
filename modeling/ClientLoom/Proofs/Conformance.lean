import ClientLoom.Proofs.ExampleShapes
import ClientLoom.Proofs.TypeShapes
import ClientLoom.Proofs.UnknownTags

/-!
# Examples conform to their types

`Conforms` says which values a type accepts.  An example conforms to the type that is inferred from
it wherever one type can fit all items of each array: where they are primitives, or objects that
agree on the keys that they share, or where there is no second item.  Texts with tags are left out,
since a tag gives a type of its own.
-/

namespace ClientLoom

namespace Json

/-- The kind of a boolean, a number or a text. -/
def primitive? : Json → Option Primitive
  | .bool _ => some .boolean
  | .number _ => some .number
  | .string _ => some .string
  | .null | .array _ | .object _ => none

/-- Two values of one kind, neither of them an array or an object. -/
def alike : Json → Json → Bool
  | .null, .null | .bool _, .bool _ | .number _, .number _ | .string _, .string _ => true
  | _, _ => false

/-- A key that both objects have holds values of one kind in both. -/
def Agree (first second : Entries Json) : Prop :=
  ∀ entry ∈ first, ∀ other ∈ second, entry.1 = other.1 → alike entry.2 other.2

instance : DecidableRel Agree := fun first second =>
  inferInstanceAs (Decidable (∀ entry ∈ first, ∀ other ∈ second,
    entry.1 = other.1 → alike entry.2 other.2))

/-- There is at most one item, or all items are primitives, or all are objects and any two of them
agree. -/
def Uniform (items : List Json) : Prop :=
  items.length ≤ 1 ∨ (∀ item ∈ items, item.primitive?.isSome) ∨
    (∀ item ∈ items, item.fields?.isSome) ∧ (items.filterMap fields?).Pairwise Agree

instance : DecidablePred Uniform := fun items =>
  inferInstanceAs (Decidable (items.length ≤ 1 ∨ (∀ item ∈ items, item.primitive?.isSome) ∨
    (∀ item ∈ items, item.fields?.isSome) ∧ (items.filterMap fields?).Pairwise Agree))

/-- A text has no tag, the items of an array are uniform, and no key of an object repeats. -/
def Regular : Json → Prop
  | .string text => Tag.find? text = none
  | .array items => Uniform items
  | .object fields => (Entries.keys fields).Nodup
  | .null | .bool _ | .number _ => True

instance : DecidablePred Regular
  | .string text => inferInstanceAs (Decidable (Tag.find? text = none))
  | .array items => inferInstanceAs (Decidable (Uniform items))
  | .object fields => inferInstanceAs (Decidable (Entries.keys fields).Nodup)
  | .null | .bool _ | .number _ => inferInstanceAs (Decidable True)

end Json

/-- The type accepts the value.  Type text that is taken over as it is accepts nothing. -/
inductive Conforms : TypeNode → Json → Prop
  | any (value : Json) : Conforms .any value
  | primitive {kind : Primitive} {value : Json} (h : value.primitive? = some kind) :
      Conforms (.primitive kind) value
  | union {members : List Primitive} {kind : Primitive} {value : Json}
      (h : value.primitive? = some kind) (hkind : kind ∈ members) : Conforms (.union members) value
  | array {element : TypeNode} {items : List Json} (h : ∀ item ∈ items, Conforms element item) :
      Conforms (.array element) (.array items)
  | object {name : String} {fields : List (Field TypeNode)} {entries : Entries Json}
      (required : ∀ field ∈ fields, field.optional = false → field.key ∈ entries.keys)
      (present : ∀ field ∈ fields, ∀ value, (field.key, value) ∈ entries →
        Conforms field.type value)
      (declared : ∀ key ∈ entries.keys, key ∈ fields.map Field.key) :
      Conforms (.object name fields) (.object entries)

theorem Json.primitive?_of_alike {value other : Json} (h : alike value other = true) :
    other.primitive? = value.primitive? := by
  cases value <;> cases other <;> simp_all [alike, primitive?]

/-- A type that accepts a value without items or fields accepts all values of its kind. -/
theorem Conforms.of_alike {type : TypeNode} {value other : Json} (h : Conforms type value)
    (halike : Json.alike value other = true) : Conforms type other := by
  have hkind := Json.primitive?_of_alike halike
  cases h with
  | any => exact .any other
  | primitive hvalue => exact .primitive (hkind.trans hvalue)
  | union hvalue hmember => exact .union (hkind.trans hvalue) hmember
  | array hitems => cases halike
  | object required present declared => cases halike

/-- The type of an array of primitives accepts items of these kinds. -/
theorem conforms_ofKinds {kinds : List Primitive} {items : List Json}
    (h : ∀ item ∈ items, ∃ kind ∈ kinds, item.primitive? = some kind) :
    Conforms (.ofKinds kinds) (.array items) := by
  unfold TypeNode.ofKinds
  split
  · rename_i kind
    refine .array fun item hitem => .primitive ?_
    obtain ⟨found, hfound, hkind⟩ := h item hitem
    rw [hkind, List.mem_singleton.1 hfound]
  · refine .array fun item hitem => ?_
    obtain ⟨found, hfound, hkind⟩ := h item hitem
    exact .union hkind hfound

/-- The type of an object accepts entries if each field that they have comes from the shape of a
value that decides for them. -/
theorem FieldsHaveShape.conforms {name : String} {types : List (Field TypeNode)}
    {fields : List (Field Shape)} {entries : Entries Json} (h : FieldsHaveShape types fields)
    (hrequired : ∀ field ∈ fields, field.optional = false → field.key ∈ entries.keys)
    (hpresent : ∀ field ∈ fields, ∀ value, (field.key, value) ∈ entries →
      ∀ type, HasShape type field.type → Conforms type value)
    (hdeclared : ∀ key ∈ entries.keys, key ∈ fields.map Field.key) :
    Conforms (.object name types) (.object entries) := by
  refine .object (fun type htype hneeded => ?_) (fun type htype value hvalue => ?_) ?_
  · obtain ⟨field, hfield, hkey, hoptional, -⟩ := h.exists_field htype
    rw [hkey]
    exact hrequired field hfield (hoptional ▸ hneeded)
  · obtain ⟨field, hfield, hkey, -, hshape⟩ := h.exists_field htype
    exact hpresent field hfield value (hkey ▸ hvalue) type.type hshape
  · rw [h.map_key]
    exact hdeclared

/-! ## Shapes of regular examples -/

namespace Shape

theorem ofText_of_regular {text : String} (h : (Json.string text).Regular) :
    Leaf.ofText text = .plain := by
  have hfind : Tag.find? text = none := h
  simp only [Leaf.ofText, hfind]

theorem primitive?_ofJson {value : Json} (h : value.Regular) :
    (ofJson value).primitive? = value.primitive? := by
  cases value with
  | null | bool _ | number _ | object _ =>
      rw [ofJson]
      rfl
  | string text =>
      rw [ofJson, ofText_of_regular h]
      rfl
  | array items =>
      rw [ofJson]
      have harray := isArray_ofItems (ofValues items)
      cases hshape : ofItems (ofValues items) with
      | emptyArray | primitives _ | array _ => rfl
      | null | boolean | number | text _ | object _ =>
          rw [hshape] at harray
          cases harray

/-- A field without a tag has the shape of its value and is not optional. -/
theorem field_of_regular {value : Json} (h : value.Regular) (key : String) :
    field key (ofJson value) = ⟨key, false, ofJson value⟩ := by
  refine field_of_not_hasRawTag (fun payload hraw => ?_) key
  obtain ⟨text, tag, rfl, hfind, -⟩ := hraw
  have hnone : Tag.find? text = none := h
  rw [hnone] at hfind
  cases hfind

/-- The fields of an object with regular values. -/
theorem ofFields_of_regular {entries : Entries Json}
    (h : ∀ entry ∈ entries, entry.2.Regular) :
    ofFields entries = entries.map fun entry => ⟨entry.1, false, ofJson entry.2⟩ := by
  rw [ofFields_eq_map]
  exact List.map_congr_left fun entry hentry => field_of_regular (h entry hentry) entry.1

end Shape

/-! ## Inference on regular examples -/

theorem Entries.eq_of_nodup {entries : Entries Json} (h : entries.keys.Nodup) {key : String}
    {value other : Json} (hvalue : (key, value) ∈ entries) (hother : (key, other) ∈ entries) :
    value = other :=
  (Prod.mk.inj (List.inj_on_of_nodup_map h hvalue hother rfl)).2

/-- The values in a regular example are regular. -/
theorem Json.regular_values {sample part : Json} (h : ∀ value ∈ sample.values, value.Regular)
    (hpart : part ∈ sample.inner) : ∀ value ∈ part.values, value.Regular :=
  fun value hvalue => h value (List.mem_cons_of_mem _ (values_subset_inner hpart hvalue))

/-- Every type of the shape of the value accepts the value. -/
def ShapeFits (value : Json) : Prop :=
  ∀ type : TypeNode, HasShape type (Shape.ofJson value) → Conforms type value

theorem conforms_object {entries : Entries Json} {type : TypeNode} (hkeys : entries.keys.Nodup)
    (hregular : ∀ entry ∈ entries, entry.2.Regular) (hfits : ∀ entry ∈ entries, ShapeFits entry.2)
    (h : HasShape type (.object (Shape.ofFields entries))) : Conforms type (.object entries) := by
  have hdeclared := Shape.map_key_ofFields entries
  cases h with
  | object hfields =>
      refine hfields.conforms (fun field hfield _ => ?_) (fun field hfield value hvalue => ?_) ?_
      · rw [← hdeclared]
        exact List.mem_map_of_mem hfield
      · rw [Shape.ofFields_of_regular hregular] at hfield
        obtain ⟨⟨key, found⟩, hentry, rfl⟩ := List.mem_map.1 hfield
        obtain rfl := Entries.eq_of_nodup hkeys hvalue hentry
        exact hfits _ hentry
      · rw [hdeclared]
        exact fun key hkey => hkey

theorem Json.alike_symm {value other : Json} (h : alike value other = true) :
    alike other value = true := by
  cases value <;> cases other <;> simp_all [alike]

instance : Std.Symm Json.Agree where
  symm _ _ h entry hentry other hother hkey :=
    Json.alike_symm (h other hother entry hentry hkey.symm)

/-- The type of many objects accepts each of them if they agree on the keys that they share. -/
theorem conforms_merged {objects : List (Entries Json)} {type : TypeNode}
    (hkeys : ∀ entries ∈ objects, entries.keys.Nodup) (hagree : objects.Pairwise Json.Agree)
    (hregular : ∀ entries ∈ objects, ∀ entry ∈ entries, entry.2.Regular)
    (hfits : ∀ entries ∈ objects, ∀ entry ∈ entries, ShapeFits entry.2)
    (h : HasShape type (.object (Shape.merge (objects.map Shape.ofFields)))) :
    ∀ entries ∈ objects, Conforms type (.object entries) := by
  intro entries hentries
  cases h with
  | object hfields =>
      refine hfields.conforms (fun field hfield hneeded => ?_)
        (fun field hfield value hvalue type hshape => ?_) (fun key hkey => ?_)
      · -- A field that is not optional is lacking in no object.
        obtain ⟨-, -, member, -, hkey, -, hoptional⟩ := Shape.of_mem_merge hfield
        rw [hneeded] at hoptional
        have hlacking := (Bool.or_eq_false_iff.1 hoptional.symm).2
        have hpresent := Shape.lacking_eq_false.1 hlacking _ (List.mem_map_of_mem hentries)
        rw [hkey, ← Shape.map_key_ofFields entries]
        exact hpresent
      · -- The field comes from one of the objects, and its value decides for all that agree.
        obtain ⟨fields, hmember, member, hmem, hkey, htype, -⟩ := Shape.of_mem_merge hfield
        obtain ⟨source, hsource, rfl⟩ := List.mem_map.1 hmember
        rw [Shape.ofFields_of_regular (hregular source hsource)] at hmem
        obtain ⟨⟨key, found⟩, hfound, rfl⟩ := List.mem_map.1 hmem
        rw [hkey] at hvalue
        rw [htype] at hshape
        have hconforms := hfits source hsource _ hfound type hshape
        by_cases hsame : source = entries
        · subst hsame
          rwa [Entries.eq_of_nodup (hkeys source hsource) hvalue hfound]
        · have hpair := hagree.forall hsource hentries hsame
          exact hconforms.of_alike (hpair _ hfound _ hvalue rfl)
      · rw [Shape.map_key_merge, List.mem_eraseDups]
        rw [← Shape.map_key_ofFields] at hkey
        obtain ⟨field, hfield, rfl⟩ := List.mem_map.1 hkey
        exact List.mem_map_of_mem (List.mem_flatten.2 ⟨_, List.mem_map_of_mem hentries, hfield⟩)

/-- Of items that are uniform and all of them objects, any two agree. -/
theorem Json.Uniform.pairwise_agree {objects : List (Entries Json)} (hne : objects ≠ [])
    (h : Uniform (objects.map .object)) : objects.Pairwise Agree := by
  rcases h with hlength | hprimitive | ⟨-, hagree⟩
  · match objects with
    | [] => exact .nil
    | [entries] => exact List.pairwise_singleton _ _
    | first :: second :: rest => simp at hlength
  · obtain ⟨entries, hentries⟩ := List.exists_mem_of_ne_nil _ hne
    have hsome := hprimitive _ (List.mem_map_of_mem hentries)
    cases hsome
  · rwa [filterMap_fields?_map] at hagree

/-- Uniform items that are neither all primitives nor all objects are at most one. -/
theorem Json.Uniform.length_le {items : List Json} (h : Uniform items)
    (hother : ∃ item ∈ items, item.primitive? = none)
    (hnoObject : ∃ item ∈ items, item.fields? = none) : items.length ≤ 1 := by
  rcases h with hlength | hprimitive | ⟨hobjects, -⟩
  · exact hlength
  · obtain ⟨item, hitem, hnone⟩ := hother
    have hsome := hprimitive item hitem
    rw [hnone] at hsome
    cases hsome
  · obtain ⟨item, hitem, hnone⟩ := hnoObject
    have hsome := hobjects item hitem
    rw [hnone] at hsome
    cases hsome

theorem conforms_array {items : List Json} {type : TypeNode} (huniform : Json.Uniform items)
    (hregular : ∀ value ∈ (Json.array items).inner, value.Regular)
    (hfits : ∀ value ∈ (Json.array items).inner, ShapeFits value)
    (h : HasShape type (Shape.ofJson (.array items))) : Conforms type (.array items) := by
  have hitemRegular : ∀ item ∈ items, item.Regular :=
    fun item hitem => hregular item (Json.mem_inner_array hitem)
  rcases Shape.ofJson_array_cases items with ⟨rfl, hshape⟩ | ⟨kinds, hkinds, hshape⟩ |
    ⟨objects, hne, rfl, hshape⟩ | ⟨first, rest, rfl, hshape, hother, hnoObject⟩
  · rw [hshape] at h
    cases h with
    | emptyArray => exact .array fun item hitem => by cases hitem
  · rw [hshape] at h
    cases h with
    | primitives =>
        refine conforms_ofKinds fun item hitem => ?_
        obtain ⟨kind, hkind, hprimitive⟩ := exists_of_forall₂ hkinds hitem
        rw [Shape.primitive?_ofJson (hitemRegular item hitem)] at hprimitive
        exact ⟨kind, List.mem_eraseDups.2 hkind, hprimitive⟩
  · rw [hshape] at h
    cases h with
    | array helement =>
        have hconforms := conforms_merged
          (fun entries hentries => hitemRegular _ (List.mem_map_of_mem hentries))
          (huniform.pairwise_agree hne)
          (fun entries hentries entry hentry => hregular _ (Json.mem_inner_objects hentries hentry))
          (fun entries hentries entry hentry => hfits _ (Json.mem_inner_objects hentries hentry))
          helement
        refine .array fun item hitem => ?_
        obtain ⟨entries, hentries, rfl⟩ := List.mem_map.1 hitem
        exact hconforms entries hentries
  · -- Items that are neither all primitives nor all objects are uniform only if there is one.
    obtain ⟨item, hitem, hnone⟩ := hother
    rw [Shape.primitive?_ofJson (hitemRegular item hitem)] at hnone
    have hlength := huniform.length_le ⟨item, hitem, hnone⟩ hnoObject
    obtain rfl : rest = [] := by simpa using hlength
    rw [hshape] at h
    cases h with
    | array helement =>
        refine .array fun other hmem => ?_
        obtain rfl := List.mem_singleton.1 hmem
        exact hfits other (Json.mem_inner_array hmem) _ helement

/-- A regular example conforms to every type of its shape. -/
theorem shapeFits_of_regular {sample : Json} (hregular : ∀ value ∈ sample.values, value.Regular) :
    ShapeFits sample := by
  induction sample using Json.induction_inner with
  | step sample ih =>
      have hsample := hregular sample List.mem_cons_self
      have hinner : ∀ part ∈ sample.inner, part.Regular :=
        fun part hpart => hregular part (List.mem_cons_of_mem _ hpart)
      have hfits : ∀ part ∈ sample.inner, ShapeFits part :=
        fun part hpart => ih part hpart (Json.regular_values hregular hpart)
      intro type h
      cases sample with
      | null =>
          rw [Shape.ofJson] at h
          cases h with
          | null => exact .any _
      | bool value =>
          rw [Shape.ofJson] at h
          cases h with
          | boolean => exact .primitive rfl
      | number value =>
          rw [Shape.ofJson] at h
          cases h with
          | number => exact .primitive rfl
      | string text =>
          rw [Shape.ofJson, Shape.ofText_of_regular hsample] at h
          cases h with
          | text htype =>
              obtain rfl := Except.ok.inj htype
              exact .primitive rfl
      | object entries =>
          rw [Shape.ofJson] at h
          exact conforms_object hsample
            (fun entry hentry => hinner _ (Json.mem_inner_object hentry))
            (fun entry hentry => hfits _ (Json.mem_inner_object hentry)) h
      | array items => exact conforms_array hsample hinner hfits h

/-! ## Inference succeeds -/

namespace Shape

/-- A tag in the shape of an example is that of a text in the example. -/
theorem exists_text_of_tagged {sample : Json} {place field kind : String}
    (h : (place, Leaf.tagged kind) ∈ (ofJson sample).leaves field) :
    ∃ text, Json.string text ∈ sample.values ∧ Leaf.ofText text = .tagged kind := by
  obtain ⟨steps, text, hsteps, hkind, -⟩ := exists_decides_of_tagged h
  exact ⟨text, hsteps.leads.mem_values, hkind⟩

end Shape

/-- For an example in which no text has a tag, no object repeats a key, and each array has at most
one item, or only primitives, or only objects that agree on the keys that they share, inference
succeeds and the example conforms to the type of its root. -/
theorem Inferred.infer_conforms {sample : Json} (hregular : ∀ value ∈ sample.values, value.Regular)
    (declared field : String) :
    ∃ inferred, Inferred.infer sample declared field = .ok inferred ∧
      Conforms inferred.root sample := by
  cases hinfer : Inferred.infer sample declared field with
  | error e =>
      exfalso
      obtain ⟨place, kind, hleaf, -⟩ := Inferred.throws_walk sample declared field {} e hinfer
      obtain ⟨text, htext, hkind⟩ := Shape.exists_text_of_tagged hleaf
      rw [Shape.ofText_of_regular (hregular _ htext)] at hkind
      cases hkind
  | ok inferred =>
      have hshape := Inferred.returns_hasShape sample declared field {} inferred hinfer
      exact ⟨inferred, rfl, shapeFits_of_regular hregular inferred.root hshape⟩

/-- An example with arrays of all kinds: objects that share a key, primitives, a single item. -/
def mixedArrays : Json :=
  .object [
    ("list", .array [
      .object [("id", .ofNat 1), ("tags", .array [.string "a", .ofNat 2, .bool true])],
      .object [("id", .ofNat 2), ("note", .null)]]),
    ("deep", .array [.array [.object []]]),
    ("none", .array [])]

theorem Inferred.infer_conforms_mixedArrays :
    (∀ value ∈ mixedArrays.values, value.Regular) ∧
      ∃ inferred, Inferred.infer mixedArrays "TResponse" "response" = .ok inferred ∧
        Conforms inferred.root mixedArrays := by
  have hregular : ∀ value ∈ mixedArrays.values, value.Regular := by decide
  exact ⟨hregular, Inferred.infer_conforms hregular "TResponse" "response"⟩

end ClientLoom
