import ClientLoom.Proofs.EntryLists
import ClientLoom.Shape
import Mathlib.Data.List.Forall2

/-!
# Shapes of examples

The values in an example and what its shape keeps of them.  The shape of an array is found in one of
four ways, which exclude one another; of many objects it keeps every key once, in the order of the
first occurrences.
-/

namespace ClientLoom

/-! ## The values in an example -/

namespace Json

mutual

/-- The values inside a value, at any depth. -/
def inner : Json → List Json
  | .array items => itemValues items
  | .object fields => fieldValues fields
  | .null | .bool _ | .number _ | .string _ => []

/-- The items of an array and the values inside them. -/
def itemValues : List Json → List Json
  | [] => []
  | item :: rest => item :: (inner item ++ itemValues rest)

/-- The values of fields and the values inside them. -/
def fieldValues : List (String × Json) → List Json
  | [] => []
  | (_, value) :: rest => value :: (inner value ++ fieldValues rest)

end

/-- All values in an example, itself first. -/
def values (sample : Json) : List Json :=
  sample :: inner sample

@[simp] theorem mem_itemValues {items : List Json} {value : Json} :
    value ∈ itemValues items ↔ ∃ item ∈ items, value ∈ item.values := by
  induction items with
  | nil => simp [itemValues]
  | cons item items ih => simp [itemValues, values, ih, or_assoc]

@[simp] theorem mem_fieldValues {fields : List (String × Json)} {value : Json} :
    value ∈ fieldValues fields ↔ ∃ field ∈ fields, value ∈ field.2.values := by
  induction fields with
  | nil => simp [fieldValues]
  | cons field fields ih => simp [fieldValues, values, ih, or_assoc]

mutual

theorem forall_inner {motive : Json → Prop}
    (step : ∀ value : Json, (∀ part ∈ value.inner, motive part) → motive value) (value : Json) :
    ∀ part ∈ value.inner, motive part := by
  match value with
  | .null | .bool _ | .number _ | .string _ =>
      intro part hpart
      cases hpart
  | .array items =>
      rw [inner]
      exact forall_itemValues step items
  | .object fields =>
      rw [inner]
      exact forall_fieldValues step fields

theorem forall_itemValues {motive : Json → Prop}
    (step : ∀ value : Json, (∀ part ∈ value.inner, motive part) → motive value)
    (items : List Json) : ∀ part ∈ itemValues items, motive part := by
  match items with
  | [] =>
      intro part hpart
      cases hpart
  | item :: rest =>
      have hitem := forall_inner step item
      have hrest := forall_itemValues step rest
      rw [itemValues, List.forall_mem_cons, List.forall_mem_append]
      exact ⟨step item hitem, hitem, hrest⟩

theorem forall_fieldValues {motive : Json → Prop}
    (step : ∀ value : Json, (∀ part ∈ value.inner, motive part) → motive value)
    (fields : List (String × Json)) : ∀ part ∈ fieldValues fields, motive part := by
  match fields with
  | [] =>
      intro part hpart
      cases hpart
  | (_, value) :: rest =>
      have hvalue := forall_inner step value
      have hrest := forall_fieldValues step rest
      rw [fieldValues, List.forall_mem_cons, List.forall_mem_append]
      exact ⟨step value hvalue, hvalue, hrest⟩

end

/-- What holds of a value if it holds of all values inside it holds of every value. -/
theorem induction_inner {motive : Json → Prop}
    (step : ∀ value : Json, (∀ part ∈ value.inner, motive part) → motive value) (value : Json) :
    motive value :=
  step value (forall_inner step value)

/-- The values in a value inside an example are inside the example. -/
theorem values_subset_inner {sample part : Json} (h : part ∈ sample.inner) :
    part.values ⊆ sample.inner := by
  induction sample using induction_inner with
  | step sample ih =>
      cases sample with
      | null | bool _ | number _ | string _ => cases h
      | array items =>
          rw [inner] at h ⊢
          obtain ⟨item, hitem, hpart⟩ := mem_itemValues.1 h
          have hvalues : item.values ⊆ itemValues items :=
            fun value hvalue => mem_itemValues.2 ⟨item, hitem, hvalue⟩
          rcases List.mem_cons.1 hpart with rfl | hinner
          · exact hvalues
          · have hmem : item ∈ (Json.array items).inner := by
              rw [inner]
              exact hvalues List.mem_cons_self
            exact fun value hvalue =>
              hvalues (List.mem_cons_of_mem item (ih item hmem hinner hvalue))
      | object fields =>
          rw [inner] at h ⊢
          obtain ⟨field, hfield, hpart⟩ := mem_fieldValues.1 h
          have hvalues : field.2.values ⊆ fieldValues fields :=
            fun value hvalue => mem_fieldValues.2 ⟨field, hfield, hvalue⟩
          rcases List.mem_cons.1 hpart with rfl | hinner
          · exact hvalues
          · have hmem : field.2 ∈ (Json.object fields).inner := by
              rw [inner]
              exact hvalues List.mem_cons_self
            exact fun value hvalue =>
              hvalues (List.mem_cons_of_mem field.2 (ih field.2 hmem hinner hvalue))

theorem mem_inner_array {items : List Json} {item : Json} (h : item ∈ items) :
    item ∈ (Json.array items).inner := by
  rw [inner]
  exact mem_itemValues.2 ⟨item, h, List.mem_cons_self⟩

theorem mem_inner_object {fields : List (String × Json)} {field : String × Json}
    (h : field ∈ fields) : field.2 ∈ (Json.object fields).inner := by
  rw [inner]
  exact mem_fieldValues.2 ⟨field, h, List.mem_cons_self⟩

theorem filterMap_fields?_map (objects : List (Entries Json)) :
    (objects.map Json.object).filterMap fields? = objects := by
  rw [List.filterMap_map]
  exact List.filterMap_some

/-- The values of the objects in an array are inside the array. -/
theorem mem_inner_objects {objects : List (Entries Json)} {entries : Entries Json}
    {entry : String × Json} (hentries : entries ∈ objects) (hentry : entry ∈ entries) :
    entry.2 ∈ (Json.array (objects.map .object)).inner :=
  values_subset_inner (mem_inner_array (List.mem_map_of_mem hentries))
    (List.mem_cons_of_mem _ (mem_inner_object hentry))

end Json

/-! ## Texts with tags -/

@[simp] theorem TagKind.ofName?_eq_some_iff {name : String} {kind : TagKind} :
    ofName? name = some kind ↔ name = kind.name := by
  constructor
  · intro h
    unfold ofName? at h
    split_ifs at h with hraw hcookie hlocal hsession
    · rw [← Option.some.inj h, hraw]
      rfl
    · rw [← Option.some.inj h, hcookie]
      rfl
    · rw [← Option.some.inj h, hlocal]
      rfl
    · rw [← Option.some.inj h, hsession]
      rfl
  · rintro rfl
    cases kind <;> rfl

@[simp] theorem TagKind.ofName?_eq_none_iff {name : String} :
    ofName? name = none ↔ ∀ kind : TagKind, name ≠ kind.name := by
  rw [Option.eq_none_iff_forall_ne_some]
  exact forall_congr' fun kind => not_congr ofName?_eq_some_iff

@[simp] theorem TagKind.parse_eq_ok_iff {name field : String} {kind : TagKind} :
    parse name field = .ok kind ↔ name = kind.name := by
  rw [← ofName?_eq_some_iff, parse]
  cases ofName? name with
  | none => simp
  | some found => simp

/-- A kind is refused exactly if it has no meaning; the error names the kind and its place. -/
@[simp] theorem TagKind.parse_eq_error_iff {name field : String} {e : Error} :
    parse name field = .error e ↔
      (∀ kind : TagKind, name ≠ kind.name) ∧ e = .unsupportedTag name field := by
  rw [← ofName?_eq_none_iff, parse]
  cases ofName? name with
  | none => simp [eq_comm]
  | some found => simp

/-- A text has no tag, or that of a raw type, or one of another kind. -/
theorem Leaf.ofText_cases (text : String) :
    Tag.find? text = none ∧ ofText text = .plain ∨
    ∃ tag, Tag.find? text = some tag ∧
      (tag.kind = TagKind.raw.name ∧ ofText text = .raw tag.payload ∨
        tag.kind ≠ TagKind.raw.name ∧ ofText text = .tagged tag.kind) := by
  unfold ofText
  cases Tag.find? text with
  | none => exact .inl ⟨rfl, rfl⟩
  | some tag =>
      refine .inr ⟨tag, rfl, ?_⟩
      by_cases hkind : tag.kind = TagKind.raw.name
      · exact .inl ⟨hkind, if_pos hkind⟩
      · exact .inr ⟨hkind, if_neg hkind⟩

/-- The value is a text with a raw tag of this payload. -/
def Json.HasRawTag (value : Json) (payload : String) : Prop :=
  ∃ text tag, value = .string text ∧ Tag.find? text = some tag ∧ tag.kind = TagKind.raw.name ∧
    tag.payload = payload

@[simp] theorem Leaf.ofText_eq_raw_iff {text payload : String} :
    ofText text = .raw payload ↔ (Json.string text).HasRawTag payload := by
  constructor
  · intro h
    rcases ofText_cases text with ⟨-, hleaf⟩ | ⟨tag, hfind, ⟨hkind, hleaf⟩ | ⟨-, hleaf⟩⟩
    all_goals rw [hleaf] at h
    · cases h
    · exact ⟨text, tag, rfl, hfind, hkind, Leaf.raw.inj h⟩
    · cases h
  · rintro ⟨_, tag, hvalue, hfind, hkind, rfl⟩
    obtain rfl := Json.string.inj hvalue
    simp only [ofText, hfind, if_pos hkind]

/-! ## Shapes of arrays -/

theorem exists_of_forall₂ {α β : Type} {relation : α → β → Prop} {items : List α} {others : List β}
    (h : List.Forall₂ relation items others) {item : α} (hitem : item ∈ items) :
    ∃ other ∈ others, relation item other := by
  induction h with
  | nil => cases hitem
  | cons hfirst hrest ih =>
      rcases List.mem_cons.1 hitem with rfl | hitem
      · exact ⟨_, List.mem_cons_self, hfirst⟩
      · obtain ⟨other, hother, hrelated⟩ := ih hitem
        exact ⟨other, List.mem_cons_of_mem _ hother, hrelated⟩

theorem mapM_option_eq_some {α β : Type} {f : α → Option β} {items : List α} {results : List β}
    (h : items.mapM f = some results) :
    List.Forall₂ (fun item result => f item = some result) items results := by
  induction items generalizing results with
  | nil =>
      obtain rfl : [] = results := by simpa using h
      exact .nil
  | cons item items ih =>
      simp only [List.mapM_cons, Option.bind_eq_bind, Option.bind_eq_some_iff] at h
      obtain ⟨result, hitem, others, hitems, hcons⟩ := h
      obtain rfl : result :: others = results := by simpa using hcons
      exact .cons hitem (ih hitems)

theorem mapM_option_eq_none {α β : Type} {f : α → Option β} {items : List α}
    (h : items.mapM f = none) : ∃ item ∈ items, f item = none := by
  induction items with
  | nil => cases h
  | cons item items ih =>
      cases hitem : f item with
      | none => exact ⟨item, List.mem_cons_self, hitem⟩
      | some result =>
          cases hitems : items.mapM f with
          | none =>
              obtain ⟨failing, hfailing, hnone⟩ := ih hitems
              exact ⟨failing, List.mem_cons_of_mem item hfailing, hnone⟩
          | some others => simp [List.mapM_cons, hitem, hitems] at h

namespace Shape

theorem ofValues_eq_map (items : List Json) : ofValues items = items.map ofJson := by
  induction items with
  | nil => rfl
  | cons item items ih => rw [ofValues, ih, List.map_cons]

theorem ofFields_eq_map (entries : List (String × Json)) :
    ofFields entries = entries.map fun entry => field entry.1 (ofJson entry.2) := by
  induction entries with
  | nil => rfl
  | cons entry entries ih => rw [ofFields, ih, List.map_cons]

@[simp] theorem key_field (key : String) (shape : Shape) : (field key shape).key = key := by
  unfold field
  split
  · rfl
  · rfl

@[simp] theorem map_key_ofFields (entries : Entries Json) :
    (ofFields entries).map Field.key = entries.keys := by
  rw [ofFields_eq_map, List.map_map, Entries.keys]
  exact List.map_congr_left fun entry _ => key_field entry.1 _

theorem eq_object_of_fields? {shape : Shape} {fields : List (Field Shape)}
    (h : shape.fields? = some fields) : shape = .object fields := by
  cases shape with
  | object fields' => rw [Option.some.inj h]
  | null | boolean | number | text _ | emptyArray | primitives _ | array _ => cases h

/-- An array is empty, or holds only primitives, or only objects, or else its type is that of its
first item. -/
theorem ofItems_cases (shapes : List Shape) :
    shapes = [] ∧ ofItems shapes = .emptyArray ∨
    (∃ kinds, List.Forall₂ (fun shape kind => shape.primitive? = some kind) shapes kinds ∧
      ofItems shapes = .primitives kinds.eraseDups) ∨
    (∃ objects, objects ≠ [] ∧ shapes = objects.map .object ∧
      ofItems shapes = .array (.object (merge objects))) ∨
    ∃ first rest, shapes = first :: rest ∧ ofItems shapes = .array first ∧
      (∃ shape ∈ shapes, shape.primitive? = none) ∧ ∃ shape ∈ shapes, shape.fields? = none := by
  cases shapes with
  | nil => exact .inl ⟨rfl, rfl⟩
  | cons first rest =>
      refine .inr ?_
      cases hkinds : (first :: rest).mapM primitive? with
      | some kinds => exact .inl ⟨kinds, mapM_option_eq_some hkinds, by simp only [ofItems, hkinds]⟩
      | none =>
          refine .inr ?_
          cases hobjects : (first :: rest).mapM fields? with
          | some objects =>
              have hshapes := mapM_option_eq_some hobjects
              refine .inl ⟨objects, ?_, ?_, by simp only [ofItems, hkinds, hobjects]⟩
              · rintro rfl
                cases hshapes
              · refine (List.forall₂_eq_eq_eq ▸ List.forall₂_map_right_iff.2 ?_ :
                  first :: rest = objects.map .object)
                exact hshapes.imp fun shape fields => eq_object_of_fields?
          | none =>
              exact .inr ⟨first, rest, rfl, by simp only [ofItems, hkinds, hobjects],
                mapM_option_eq_none hkinds, mapM_option_eq_none hobjects⟩

/-- The shape is that of an array. -/
def isArray : Shape → Bool
  | .emptyArray | .primitives _ | .array _ => true
  | .null | .boolean | .number | .text _ | .object _ => false

@[simp] theorem isArray_ofItems (shapes : List Shape) : (ofItems shapes).isArray = true := by
  rcases ofItems_cases shapes with ⟨-, h⟩ | ⟨_, -, h⟩ | ⟨_, -, -, h⟩ | ⟨_, _, -, h, -⟩
  all_goals rw [h]; rfl

theorem fields?_of_isArray {shape : Shape} (h : shape.isArray = true) : shape.fields? = none := by
  cases shape with
  | emptyArray | primitives _ | array _ => rfl
  | null | boolean | number | text _ | object _ => cases h

@[simp] theorem fields?_ofJson (sample : Json) :
    (ofJson sample).fields? = sample.fields?.map ofFields := by
  cases sample with
  | null | bool _ | number _ | string _ =>
      rw [ofJson]
      rfl
  | array items =>
      rw [ofJson, fields?_of_isArray (isArray_ofItems _)]
      rfl
  | object fields =>
      rw [ofJson]
      rfl

/-- An array whose items have the shapes of objects is one of objects. -/
theorem exists_entries {items : List Json} {objects : List (List (Field Shape))}
    (h : items.map ofJson = objects.map .object) :
    ∃ entries : List (Entries Json), items = entries.map .object ∧
      objects = entries.map ofFields := by
  induction items generalizing objects with
  | nil =>
      obtain rfl := List.map_eq_nil_iff.1 h.symm
      exact ⟨[], rfl, rfl⟩
  | cons item items ih =>
      cases objects with
      | nil => cases h
      | cons fields objects =>
          obtain ⟨hitem, hitems⟩ := List.cons.inj h
          obtain ⟨entries, rfl, rfl⟩ := ih hitems
          have hfields := fields?_ofJson item
          rw [hitem] at hfields
          obtain ⟨first, hfirst, rfl⟩ := Option.map_eq_some_iff.1 hfields.symm
          cases item with
          | object fields' =>
              obtain rfl := Option.some.inj hfirst
              exact ⟨fields' :: entries, rfl, rfl⟩
          | null | bool _ | number _ | string _ | array _ => cases hfirst

/-- The shape of an array, by its items: there is none, or all are primitives, or all are objects, or
else the first one stands for all. -/
theorem ofJson_array_cases (items : List Json) :
    items = [] ∧ ofJson (.array items) = .emptyArray ∨
    (∃ kinds, List.Forall₂ (fun item kind => (ofJson item).primitive? = some kind) items kinds ∧
      ofJson (.array items) = .primitives kinds.eraseDups) ∨
    (∃ objects : List (Entries Json), objects ≠ [] ∧ items = objects.map .object ∧
      ofJson (.array items) = .array (.object (merge (objects.map ofFields)))) ∨
    ∃ first rest, items = first :: rest ∧ ofJson (.array items) = .array (ofJson first) ∧
      (∃ item ∈ items, (ofJson item).primitive? = none) ∧ ∃ item ∈ items, item.fields? = none := by
  rw [ofJson, ofValues_eq_map]
  rcases ofItems_cases (items.map ofJson) with ⟨hitems, hshape⟩ | ⟨kinds, hkinds, hshape⟩ |
    ⟨fields, hne, hitems, hshape⟩ | ⟨first, rest, hitems, hshape, hother, hnoObject⟩
  · exact .inl ⟨List.map_eq_nil_iff.1 hitems, hshape⟩
  · exact .inr (.inl ⟨kinds, List.forall₂_map_left_iff.1 hkinds, hshape⟩)
  · obtain ⟨objects, rfl, rfl⟩ := exists_entries hitems
    exact .inr (.inr (.inl ⟨objects, fun hnil => hne (List.map_eq_nil_iff.2 hnil), rfl, hshape⟩))
  · obtain ⟨item, others, rfl, rfl, -⟩ := List.map_eq_cons_iff.1 hitems
    refine .inr (.inr (.inr ⟨item, others, rfl, hshape, ?_, ?_⟩))
    · obtain ⟨shape, hmem, hnone⟩ := hother
      obtain ⟨found, hfound, rfl⟩ := List.mem_map.1 hmem
      exact ⟨found, hfound, hnone⟩
    · obtain ⟨shape, hmem, hnone⟩ := hnoObject
      obtain ⟨found, hfound, rfl⟩ := List.mem_map.1 hmem
      rw [fields?_ofJson] at hnone
      exact ⟨found, hfound, Option.map_eq_none_iff.1 hnone⟩

@[simp] theorem ofJson_eq_raw_iff {value : Json} {payload : String} :
    ofJson value = .text (.raw payload) ↔ value.HasRawTag payload := by
  cases value with
  | string text =>
      rw [ofJson, ← Leaf.ofText_eq_raw_iff]
      exact ⟨fun h => Shape.text.inj h, fun h => congrArg Shape.text h⟩
  | null | bool _ | number _ | object _ =>
      rw [ofJson]
      constructor
      · intro h
        cases h
      · rintro ⟨_, _, hvalue, -⟩
        cases hvalue
  | array items =>
      have harray := isArray_ofItems (ofValues items)
      rw [ofJson]
      constructor
      · intro h
        rw [h] at harray
        cases harray
      · rintro ⟨_, _, hvalue, -⟩
        cases hvalue

/-- A field with a raw tag has what the optional law makes of the payload. -/
theorem field_of_hasRawTag {value : Json} {payload : String} (h : value.HasRawTag payload)
    (key : String) :
    field key (ofJson value) =
      ⟨key, (optionalLaw payload).2, .text (.raw (optionalLaw payload).1)⟩ := by
  rw [ofJson_eq_raw_iff.2 h]
  rfl

/-- Any other field has the shape of its value and is not optional. -/
theorem field_of_not_hasRawTag {value : Json} (h : ∀ payload, ¬ value.HasRawTag payload)
    (key : String) : field key (ofJson value) = ⟨key, false, ofJson value⟩ := by
  unfold field
  split
  · rename_i payload hshape
    exact absurd (ofJson_eq_raw_iff.1 hshape) (h payload)
  · rfl

/-- The shape of an array of objects is that of one object for all of them. -/
theorem ofJson_objects {objects : List (Entries Json)} (hne : objects ≠ []) :
    ofJson (.array (objects.map .object)) = .array (.object (merge (objects.map ofFields))) := by
  obtain ⟨first, rest, rfl⟩ := List.exists_cons_of_ne_nil hne
  rcases ofJson_array_cases ((first :: rest).map Json.object) with ⟨hnil, -⟩ | ⟨kinds, hkinds, -⟩ |
    ⟨objects, -, hobjects, hshape⟩ | ⟨_, _, -, -, -, hnoObject⟩
  · cases hnil
  · cases hkinds with
    | cons hfirst _ =>
        rw [ofJson] at hfirst
        cases hfirst
  · have hinjective : Function.Injective Json.object := fun _ _ => Json.object.inj
    obtain rfl := hinjective.list_map hobjects
    exact hshape
  · obtain ⟨item, hitem, hnone⟩ := hnoObject
    obtain ⟨entries, -, rfl⟩ := List.mem_map.1 hitem
    cases hnone

/-! ## Many objects as one -/

theorem firstFields_sublist (seen : List String) (fields : List (Field Shape)) :
    (firstFields seen fields).Sublist fields := by
  induction fields generalizing seen with
  | nil => exact .slnil
  | cons field fields ih =>
      rw [firstFields]
      split
      · exact (ih seen).cons field
      · exact (ih _).cons_cons field

theorem map_key_firstFields (seen : List String) (fields : List (Field Shape)) :
    (firstFields seen fields).map Field.key =
      ((fields.map Field.key).filter fun key => !seen.contains key).eraseDups := by
  induction fields generalizing seen with
  | nil => rfl
  | cons field fields ih =>
      rw [firstFields, List.map_cons]
      by_cases hseen : seen.contains field.key = true
      · rw [if_pos hseen, ih, List.filter_cons_of_neg (by simpa using hseen)]
      · rw [if_neg hseen, List.map_cons, ih, List.filter_cons_of_pos (by simpa using hseen),
          List.eraseDups_cons, List.filter_filter]
        have hfilter : (fun key => !(field.key :: seen).contains key) =
            fun key => !(key == field.key) && !seen.contains key := by
          funext key
          rw [List.contains_cons, Bool.not_or]
        rw [hfilter]

/-- Every key once, in the order of the first occurrences. -/
@[simp] theorem map_key_merge (objects : List (List (Field Shape))) :
    (merge objects).map Field.key = (objects.flatten.map Field.key).eraseDups := by
  have hkeys := map_key_firstFields [] objects.flatten
  simpa [merge, Function.comp_def] using hkeys

theorem of_mem_merge {objects : List (List (Field Shape))} {merged : Field Shape}
    (h : merged ∈ merge objects) :
    ∃ fields ∈ objects, ∃ member ∈ fields, merged.key = member.key ∧ merged.type = member.type ∧
      merged.optional = (member.optional || lacking objects member.key) := by
  obtain ⟨member, hmember, rfl⟩ := List.mem_map.1 h
  obtain ⟨fields, hfields, hmem⟩ :=
    List.mem_flatten.1 ((firstFields_sublist [] objects.flatten).subset hmember)
  exact ⟨fields, hfields, member, hmem, rfl, rfl, rfl⟩

/-- What is kept of the fields of entries are those of the first values. -/
theorem exists_first_of_mem {seen : List String} {entries : Entries Json} {member : Field Shape}
    (h : member ∈ firstFields seen (ofFields entries)) :
    member.key ∉ seen ∧
      ∃ value, entries.get? member.key = some value ∧ member = field member.key (ofJson value) := by
  induction entries generalizing seen with
  | nil => cases h
  | cons entry entries ih =>
      obtain ⟨key, value⟩ := entry
      rw [ofFields, firstFields, key_field] at h
      by_cases hseen : seen.contains key = true
      · rw [if_pos hseen] at h
        obtain ⟨hnew, hfirst⟩ := ih h
        have hne : key ≠ member.key := by
          rintro rfl
          exact hnew (List.contains_iff_mem.1 hseen)
        rw [Entries.get?, if_neg hne]
        exact ⟨hnew, hfirst⟩
      · rw [if_neg hseen] at h
        rcases List.mem_cons.1 h with rfl | h
        · rw [key_field, Entries.get?, if_pos rfl]
          exact ⟨fun hmem => hseen (List.contains_iff_mem.2 hmem), value, rfl, rfl⟩
        · obtain ⟨hnew, hfirst⟩ := ih h
          rw [Entries.get?, if_neg (List.ne_of_not_mem_cons hnew).symm]
          exact ⟨List.not_mem_of_not_mem_cons hnew, hfirst⟩

theorem flatten_map_ofFields (objects : List (Entries Json)) :
    (objects.map ofFields).flatten = ofFields objects.flatten := by
  rw [ofFields_eq_map, List.map_flatten]
  exact congrArg List.flatten (List.map_congr_left fun entries _ => ofFields_eq_map entries)

/-- The keys of many objects as one are those that occur, each where it first does. -/
theorem map_key_merge_ofFields (objects : List (Entries Json)) :
    (merge (objects.map ofFields)).map Field.key = (objects.flatMap Entries.keys).eraseDups := by
  rw [map_key_merge, flatten_map_ofFields, map_key_ofFields, Entries.keys, List.map_flatten]
  rfl

/-- A field of many objects as one is that of the first value of its key, and optional also if some
object lacks the key. -/
theorem exists_of_mem_merge {objects : List (Entries Json)} {merged : Field Shape}
    (h : merged ∈ merge (objects.map ofFields)) :
    ∃ value, Entries.get? merged.key objects.flatten = some value ∧
      merged.type = (field merged.key (ofJson value)).type ∧
      merged.optional = ((field merged.key (ofJson value)).optional ||
        lacking (objects.map ofFields) merged.key) := by
  obtain ⟨member, hmember, rfl⟩ := List.mem_map.1 h
  rw [flatten_map_ofFields] at hmember
  obtain ⟨-, value, hvalue, hfield⟩ := exists_first_of_mem hmember
  have htype : member.type = (field member.key (ofJson value)).type := congrArg Field.type hfield
  have hoptional : member.optional = (field member.key (ofJson value)).optional :=
    congrArg Field.optional hfield
  exact ⟨value, hvalue, htype, congrArg (· || _) hoptional⟩

theorem exists_merged_of_get? {objects : List (Entries Json)} {key : String} {value : Json}
    (h : Entries.get? key objects.flatten = some value) :
    ∃ merged ∈ merge (objects.map ofFields), merged.key = key ∧
      merged.type = (field key (ofJson value)).type := by
  have hkey : key ∈ (merge (objects.map ofFields)).map Field.key := by
    rw [map_key_merge, flatten_map_ofFields, map_key_ofFields, List.mem_eraseDups]
    exact List.mem_map_of_mem (Entries.mem_of_get?_eq_some h)
  obtain ⟨merged, hmerged, rfl⟩ := List.mem_map.1 hkey
  obtain ⟨first, hfirst, htype, -⟩ := exists_of_mem_merge hmerged
  obtain rfl : value = first := Option.some.inj (h.symm.trans hfirst)
  exact ⟨merged, hmerged, rfl, htype⟩

@[simp] theorem lacking_eq_false {objects : List (List (Field Shape))} {key : String} :
    lacking objects key = false ↔ ∀ fields ∈ objects, key ∈ fields.map Field.key := by
  simp [lacking]

end Shape

end ClientLoom
