import ClientLoom.Proofs.ExampleShapes
import ClientLoom.Proofs.TypeShapes

/-!
# Tags without meaning

Not every value in an example decides its type: of many objects the first value of each key does,
and of other items the first one.  Inference fails exactly when a text that decides has a tag without
meaning, and its error names that tag and the steps that lead to the text.  A tag without meaning in
a text that does not decide is passed over.
-/

namespace ClientLoom

namespace Json

/-! ## Steps into an example -/

/-- A step from a value into it. -/
inductive Step
  /-- To the value of a key of an object. -/
  | key (key : String)
  /-- To an item of an array. -/
  | item (index : Nat)

/-- How a message writes a step. -/
def Step.mark : Step → String
  | .key name => "." ++ name
  | .item _ => "[]"

/-- How a message writes the place to which steps lead from the place `field`. -/
def Step.place (field : String) (steps : List Step) : String :=
  steps.foldl (fun place step => place ++ step.mark) field

@[simp] theorem Step.place_key (field key : String) (steps : List Step) :
    place field (.key key :: steps) = place (field ++ "." ++ key) steps := by
  rw [String.append_assoc]
  rfl

@[simp] theorem Step.place_item (field : String) (index : Nat) (steps : List Step) :
    place field (.item index :: steps) = place (field ++ "[]") steps :=
  rfl

/-- The steps lead from an example to a value in it. -/
inductive Leads : List Step → Json → Json → Prop
  | here (value : Json) : Leads [] value value
  | key {key : String} {value part : Json} {entries : Entries Json} {steps : List Step}
      (hentry : (key, value) ∈ entries) (h : Leads steps value part) :
      Leads (.key key :: steps) (.object entries) part
  | item {value part : Json} {front back : List Json} {steps : List Step}
      (h : Leads steps value part) :
      Leads (.item front.length :: steps) (.array (front ++ value :: back)) part

/-- What steps lead to is a value in the example. -/
theorem Leads.mem_values {steps : List Step} {sample part : Json} (h : Leads steps sample part) :
    part ∈ sample.values := by
  induction h with
  | here value => exact List.mem_cons_self
  | key hentry h ih =>
      exact List.mem_cons_of_mem _ (values_subset_inner (mem_inner_object hentry) ih)
  | item h ih =>
      refine List.mem_cons_of_mem _ (values_subset_inner (mem_inner_array ?_) ih)
      exact List.mem_append_right _ List.mem_cons_self

/-- The steps lead from an example to a value that decides its type: in an object every value does,
of many objects the first value of each key, and of items that are not all objects the first one.
(Where all items are primitives without tags each of them has a part in the type; as no text among
them has a tag, it makes no difference here that only the first one is counted.) -/
inductive Decides : List Step → Json → Json → Prop
  | here (value : Json) : Decides [] value value
  | key {key : String} {value part : Json} {entries : Entries Json} {steps : List Step}
      (hentry : (key, value) ∈ entries) (h : Decides steps value part) :
      Decides (.key key :: steps) (.object entries) part
  | merged {key : String} {value part : Json} {front back : List (Entries Json)}
      {entries : Entries Json} {steps : List Step} (hnew : ∀ earlier ∈ front, key ∉ earlier.keys)
      (hvalue : entries.get? key = some value) (h : Decides steps value part) :
      Decides (.item front.length :: .key key :: steps)
        (.array ((front ++ entries :: back).map .object)) part
  | first {item part : Json} {items : List Json} {steps : List Step}
      (hnoObject : ∃ other ∈ item :: items, other.fields? = none) (h : Decides steps item part) :
      Decides (.item 0 :: steps) (.array (item :: items)) part

theorem Decides.leads {steps : List Step} {sample part : Json} (h : Decides steps sample part) :
    Leads steps sample part := by
  induction h with
  | here value => exact .here value
  | key hentry h ih => exact .key hentry ih
  | @merged key value part front back entries steps hnew hvalue h ih =>
      have hobject : Leads (.key key :: steps) (.object entries) part :=
        .key (Entries.mem_of_get?_eq_some hvalue) ih
      rw [List.map_append, List.map_cons, ← List.length_map Json.object]
      exact .item hobject
  | @first item part items steps hnoObject h ih =>
      exact (Leads.item ih : Leads (.item [].length :: steps) (.array ([] ++ item :: items)) part)

/-- The value of the first object that has a key is the first value of the key. -/
theorem get?_flatten_of_front {key : String} {value : Json} {front : List (Entries Json)}
    {entries : Entries Json} (hnew : ∀ earlier ∈ front, key ∉ earlier.keys)
    (hvalue : entries.get? key = some value) (back : List (Entries Json)) :
    Entries.get? key (front ++ entries :: back).flatten = some value := by
  have hfront : Entries.get? key front.flatten = none := by
    rw [Entries.get?_flatten, List.findSome?_eq_none_iff]
    exact fun earlier hearlier => Entries.get?_eq_none_iff.2 (hnew earlier hearlier)
  rw [List.flatten_append, Entries.get?_append, hfront, List.flatten_cons, Entries.get?_append,
    hvalue]
  rfl

/-- The first value of a key is that of the first object that has the key. -/
theorem exists_front_of_get?_flatten {key : String} {value : Json} {objects : List (Entries Json)}
    (h : Entries.get? key objects.flatten = some value) :
    ∃ front entries back, objects = front ++ entries :: back ∧
      (∀ earlier ∈ front, key ∉ earlier.keys) ∧ entries.get? key = some value := by
  rw [Entries.get?_flatten] at h
  obtain ⟨front, entries, back, rfl, hvalue, hfront⟩ := List.findSome?_eq_some_iff.1 h
  exact ⟨front, entries, back, rfl,
    fun earlier hearlier => Entries.get?_eq_none_iff.1 (hfront earlier hearlier), hvalue⟩

end Json

/-! ## Texts with tags without meaning -/

/-- The text has a tag of this kind, and no meaning is known for it. -/
def UnknownTag (text kind : String) : Prop :=
  ∃ tag, Tag.find? text = some tag ∧ tag.kind = kind ∧ ∀ known : TagKind, kind ≠ known.name

theorem unknownTag_iff {text kind : String} :
    UnknownTag text kind ↔
      Leaf.ofText text = .tagged kind ∧ ∀ known : TagKind, kind ≠ known.name := by
  constructor
  · rintro ⟨tag, hfind, rfl, hunknown⟩
    refine ⟨?_, hunknown⟩
    simp only [Leaf.ofText, hfind, if_neg (hunknown .raw)]
  · rintro ⟨h, hunknown⟩
    rcases Leaf.ofText_cases text with ⟨-, hleaf⟩ | ⟨tag, hfind, ⟨-, hleaf⟩ | ⟨-, hleaf⟩⟩
    all_goals rw [hleaf] at h
    · cases h
    · cases h
    · exact ⟨tag, hfind, Leaf.tagged.inj h, hunknown⟩

namespace Shape

open Json (Decides Step)

variable {place field kind : String}

/-- What makes a field optional leaves a text with another tag as it is. -/
@[simp] theorem tagged_mem_field_iff {key : String} {shape : Shape} :
    (place, Leaf.tagged kind) ∈ (Shape.field key shape).type.leaves field ↔
      (place, Leaf.tagged kind) ∈ shape.leaves field := by
  unfold Shape.field
  split
  · simp [leaves]
  · rfl

theorem tagged_not_mem_of_primitive? {shape : Shape} {primitive : Primitive}
    (h : shape.primitive? = some primitive) :
    (place, Leaf.tagged kind) ∉ shape.leaves field := by
  cases shape with
  | boolean | number => simp [leaves]
  | text leaf =>
      cases leaf with
      | plain => simp [leaves]
      | raw _ | tagged _ => cases h
  | null | emptyArray | primitives _ | array _ | object _ => cases h

/-- A tag in the shape of an example is that of a text that decides. -/
theorem exists_decides_of_tagged {sample : Json}
    (h : (place, Leaf.tagged kind) ∈ (ofJson sample).leaves field) :
    ∃ steps text, Decides steps sample (.string text) ∧ Leaf.ofText text = .tagged kind ∧
      place = Step.place field steps := by
  induction sample using Json.induction_inner generalizing place field with
  | step sample ih =>
      cases sample with
      | null | bool _ | number _ =>
          rw [ofJson] at h
          cases h
      | string text =>
          rw [ofJson, leaves, List.mem_singleton] at h
          obtain ⟨hplace, hleaf⟩ := Prod.mk.inj h
          exact ⟨[], text, .here _, hleaf.symm, hplace⟩
      | object entries =>
          rw [ofJson, leaves, ofFields_eq_map] at h
          obtain ⟨member, hmember, hleaf⟩ := mem_fieldLeaves.1 h
          obtain ⟨⟨key, value⟩, hentry, rfl⟩ := List.mem_map.1 hmember
          rw [key_field] at hleaf
          obtain ⟨steps, text, hsteps, hkind, hplace⟩ :=
            ih value (Json.mem_inner_object hentry) (tagged_mem_field_iff.1 hleaf)
          refine ⟨.key key :: steps, text, .key hentry hsteps, hkind, ?_⟩
          rw [hplace, Step.place_key]
      | array items =>
          rcases ofJson_array_cases items with ⟨-, hshape⟩ | ⟨kinds, -, hshape⟩ |
            ⟨objects, -, rfl, hshape⟩ | ⟨first, rest, rfl, hshape, -, hnoObject⟩
          · rw [hshape] at h
            cases h
          · rw [hshape] at h
            cases h
          · -- The walk goes over one object for many, so the field is traced back to its first value.
            rw [hshape, leaves, leaves] at h
            obtain ⟨merged, hmerged, hleaf⟩ := mem_fieldLeaves.1 h
            obtain ⟨value, hvalue, htype, -⟩ := exists_of_mem_merge hmerged
            rw [htype] at hleaf
            obtain ⟨front, entries, back, rfl, hnew, hget⟩ :=
              Json.exists_front_of_get?_flatten hvalue
            have hmem : entries ∈ front ++ entries :: back :=
              List.mem_append_right _ List.mem_cons_self
            have hinner := Json.mem_inner_objects hmem (Entries.mem_of_get?_eq_some hget)
            obtain ⟨steps, text, hsteps, hkind, hplace⟩ :=
              ih value hinner (tagged_mem_field_iff.1 hleaf)
            refine ⟨.item front.length :: .key merged.key :: steps, text, .merged hnew hget hsteps,
              hkind, ?_⟩
            rw [hplace, Step.place_item, Step.place_key]
          · rw [hshape, leaves] at h
            obtain ⟨steps, text, hsteps, hkind, hplace⟩ :=
              ih first (Json.mem_inner_array List.mem_cons_self) h
            exact ⟨.item 0 :: steps, text, .first hnoObject hsteps, hkind, hplace⟩

/-- The tag of a text that decides is in the shape of the example. -/
theorem tagged_mem_of_decides {steps : List Step} {sample : Json} {text : String}
    (h : Decides steps sample (.string text)) (hkind : Leaf.ofText text = .tagged kind)
    (field : String) :
    (Step.place field steps, Leaf.tagged kind) ∈ (ofJson sample).leaves field := by
  generalize hpart : Json.string text = part at h
  induction h generalizing field with
  | here value =>
      subst hpart
      rw [ofJson, leaves, hkind]
      exact List.mem_singleton_self _
  | @key key value part entries steps hentry h ih =>
      rw [ofJson, leaves, ofFields_eq_map, Step.place_key]
      refine mem_fieldLeaves.2 ⟨_, List.mem_map_of_mem hentry, ?_⟩
      rw [key_field]
      exact tagged_mem_field_iff.2 (ih _ hpart)
  | @merged key value part front back entries steps hnew hvalue h ih =>
      obtain ⟨merged, hmerged, rfl, htype⟩ :=
        exists_merged_of_get? (Json.get?_flatten_of_front hnew hvalue back)
      rw [ofJson_objects (by simp), leaves, leaves, Step.place_item, Step.place_key]
      refine mem_fieldLeaves.2 ⟨merged, hmerged, ?_⟩
      rw [htype]
      exact tagged_mem_field_iff.2 (ih _ hpart)
  | @first item part items steps hnoObject h ih =>
      have hitem := ih (field ++ "[]") hpart
      rw [Step.place_item]
      rcases ofJson_array_cases (item :: items) with ⟨hnil, -⟩ | ⟨kinds, hkinds, -⟩ |
        ⟨objects, -, hobjects, -⟩ | ⟨first, rest, hcons, hshape, -, -⟩
      · cases hnil
      · -- Items that are all primitives have no tags.
        cases hkinds with
        | cons hfirst _ => exact absurd hitem (tagged_not_mem_of_primitive? hfirst)
      · obtain ⟨other, hother, hnone⟩ := hnoObject
        rw [hobjects] at hother
        obtain ⟨entries, -, rfl⟩ := List.mem_map.1 hother
        cases hnone
      · obtain ⟨rfl, rfl⟩ := List.cons.inj hcons
        rw [hshape, leaves]
        exact hitem

mutual

/-- A shape that has a type has no tag without meaning. -/
theorem unknown_not_mem_leaves (hunknown : ∀ known : TagKind, kind ≠ known.name)
    {type : TypeNode} (shape : Shape) (h : HasShape type shape) (field : String) :
    (place, Leaf.tagged kind) ∉ shape.leaves field := by
  match shape with
  | .null | .boolean | .number | .emptyArray | .primitives _ => simp [leaves]
  | .text leaf =>
      cases h with
      | text htype =>
          rw [leaves, List.mem_singleton]
          intro hleaf
          obtain rfl := (Prod.mk.inj hleaf).2
          -- A text with this tag has a type only if the kind was found.
          obtain ⟨known, hknown, -⟩ := bind_eq_ok.1 htype
          exact hunknown known (TagKind.parse_eq_ok_iff.1 hknown)
  | .array element =>
      cases h with
      | array helement =>
          rw [leaves]
          exact unknown_not_mem_leaves hunknown element helement (field ++ "[]")
  | .object fields =>
      cases h with
      | object hfields =>
          rw [leaves]
          exact unknown_not_mem_fieldLeaves hunknown fields hfields field

theorem unknown_not_mem_fieldLeaves (hunknown : ∀ known : TagKind, kind ≠ known.name)
    {types : List (Field TypeNode)} (fields : List (Field Shape))
    (h : FieldsHaveShape types fields) (field : String) :
    (place, Leaf.tagged kind) ∉ fieldLeaves field fields := by
  match fields with
  | [] => simp [fieldLeaves]
  | ⟨key, optional, shape⟩ :: rest =>
      cases h with
      | cons hfirst hrest =>
          rw [fieldLeaves, List.mem_append, not_or]
          exact ⟨unknown_not_mem_leaves hunknown shape hfirst _,
            unknown_not_mem_fieldLeaves hunknown rest hrest _⟩

end

end Shape

/-! ## Where inference fails -/

open Json (Decides Leads Step)

/-- If inference fails, its error names the tag of a text in the example, whose kind has no meaning,
and the place of the text: the steps that lead to it, behind the place of the example. -/
theorem Inferred.error_at_text {sample : Json} {declared field : String} {names : TypeNames}
    {e : Error} (h : ((Inferred.walk sample declared field).run names).1 = .error e) :
    ∃ steps text tag, Leads steps sample (.string text) ∧ Tag.find? text = some tag ∧
      (∀ known : TagKind, tag.kind ≠ known.name) ∧
      e = .unsupportedTag tag.kind (Step.place field steps) := by
  obtain ⟨place, kind, hleaf, hkind, rfl⟩ :=
    Inferred.throws_walk sample declared field names e h
  obtain ⟨steps, text, hsteps, htext, rfl⟩ := Shape.exists_decides_of_tagged hleaf
  obtain ⟨tag, hfind, rfl, hunknown⟩ := unknownTag_iff.2 ⟨htext, hkind⟩
  exact ⟨steps, text, tag, hsteps.leads, hfind, hunknown, rfl⟩

/-- Objects of which the second has the text at fault, under a key that the first one lacks. -/
def lateTag : Json :=
  .object [("rows", .array [
    .object [("id", .string "<raw>number</raw>")],
    .object [("id", .ofNat 2), ("owner", .array [.string "<env>ID</env>", .null])]])]

theorem Inferred.error_at_text_lateTag :
    ∃ e, ((Inferred.walk lateTag "TParams" "params").run ⟨["TParams"]⟩).1 = .error e ∧
      e.message = "unsupported tag <env> in params.rows[].owner[]" ∧
      ∃ steps text tag, Leads steps lateTag (.string text) ∧ Tag.find? text = some tag ∧
        (∀ known : TagKind, tag.kind ≠ known.name) ∧
        e = .unsupportedTag tag.kind (Step.place "params" steps) := by
  have hrun : ((Inferred.walk lateTag "TParams" "params").run ⟨["TParams"]⟩).1 =
      .error (.unsupportedTag "env" "params.rows[].owner[]") := by
    rfl
  exact ⟨_, hrun, rfl, Inferred.error_at_text hrun⟩

/-! ## Tags that are passed over -/

/-- Inference fails at a tag exactly when a text that decides has a tag without meaning. -/
theorem Inferred.exists_unsupported_iff (sample : Json) (declared field : String) :
    (∃ kind place, Inferred.infer sample declared field = .error (.unsupportedTag kind place)) ↔
      ∃ steps text kind, Decides steps sample (.string text) ∧ UnknownTag text kind := by
  constructor
  · rintro ⟨kind, place, h⟩
    obtain ⟨place, kind, hleaf, hkind, -⟩ :=
      Inferred.throws_walk sample declared field {} _ h
    obtain ⟨steps, text, hsteps, htext, -⟩ := Shape.exists_decides_of_tagged hleaf
    exact ⟨steps, text, kind, hsteps, unknownTag_iff.2 ⟨htext, hkind⟩⟩
  · rintro ⟨steps, text, kind, hsteps, hunknown⟩
    cases hinfer : Inferred.infer sample declared field with
    | error e =>
        obtain ⟨place, kind, -, -, rfl⟩ := Inferred.throws_walk sample declared field {} e hinfer
        exact ⟨kind, place, rfl⟩
    | ok inferred =>
        -- A type that is returned has the shape of the example, where no such tag is left.
        have hshape := Inferred.returns_hasShape sample declared field {} inferred hinfer
        obtain ⟨htext, hkind⟩ := unknownTag_iff.1 hunknown
        have hleaf := Shape.tagged_mem_of_decides hsteps htext field
        exact absurd hleaf (Shape.unknown_not_mem_leaves hkind _ hshape field)

/-- Every item decides: there is one at most or all are objects, and no key comes twice in them. -/
def Json.SkipsNothing (items : List Json) : Prop :=
  (items.length ≤ 1 ∨ ∀ item ∈ items, item.fields?.isSome) ∧
    ((items.filterMap fields?).flatMap Entries.keys).Nodup

instance : DecidablePred Json.SkipsNothing := fun items =>
  inferInstanceAs (Decidable ((items.length ≤ 1 ∨ ∀ item ∈ items, item.fields?.isSome) ∧
    ((items.filterMap Json.fields?).flatMap Entries.keys).Nodup))

namespace Json

/-- Items that are all objects are so by their entries. -/
theorem exists_objects {items : List Json} (h : ∀ item ∈ items, item.fields?.isSome) :
    ∃ objects : List (Entries Json), items = objects.map .object := by
  induction items with
  | nil => exact ⟨[], rfl⟩
  | cons item items ih =>
      obtain ⟨hitem, hitems⟩ := List.forall_mem_cons.1 h
      obtain ⟨objects, rfl⟩ := ih hitems
      cases item with
      | object entries => exact ⟨entries :: objects, rfl⟩
      | null | bool _ | number _ | string _ | array _ => cases hitem

/-- Steps to a text in objects that have no key in common lead to a text that decides. -/
theorem Decides.objects {front back : List (Entries Json)} {entries : Entries Json}
    {steps : List Step} {text : String} (h : Decides steps (.object entries) (.string text))
    (hnodup : ((front ++ entries :: back).flatMap Entries.keys).Nodup) :
    Decides (.item front.length :: steps) (.array ((front ++ entries :: back).map .object))
      (.string text) := by
  rw [List.flatMap_append, List.flatMap_cons, List.nodup_append] at hnodup
  obtain ⟨-, hentries, hdisjoint⟩ := hnodup
  cases h with
  | @key key value _ _ steps hentry h =>
      have hkey : key ∈ entries.keys := List.mem_map_of_mem hentry
      refine .merged (fun earlier hearlier hmem => ?_) ?_ h
      · exact hdisjoint key (List.mem_flatMap.2 ⟨earlier, hearlier, hmem⟩) key
          (List.mem_append_left _ hkey) rfl
      · exact Entries.get?_of_mem_of_nodup (List.nodup_append.1 hentries).1 hentry

/-- Where every item decides, every text in the example does. -/
theorem Leads.decides {steps : List Step} {sample : Json} {text : String}
    (h : Leads steps sample (.string text))
    (harrays : ∀ steps items, Leads steps sample (.array items) → SkipsNothing items) :
    Decides steps sample (.string text) := by
  generalize hpart : Json.string text = part at h
  induction h with
  | here value => exact .here value
  | key hentry h ih =>
      exact .key hentry (ih (fun steps items hitems => harrays _ items (.key hentry hitems)) hpart)
  | @item value part front back steps h ih =>
      have hvalue := ih (fun steps items hitems => harrays _ items (.item hitems)) hpart
      obtain ⟨hitems, hnodup⟩ := harrays [] _ (.here _)
      by_cases hobjects : ∀ item ∈ front ++ value :: back, item.fields?.isSome
      · obtain ⟨objects, hmap⟩ := exists_objects hobjects
        obtain ⟨first, rest, rfl, rfl, hrest⟩ := List.map_eq_append_iff.1 hmap.symm
        obtain ⟨entries, others, rfl, rfl, rfl⟩ := List.map_eq_cons_iff.1 hrest
        subst hpart
        rw [← List.map_cons, ← List.map_append] at hnodup ⊢
        rw [filterMap_fields?_map] at hnodup
        rw [List.length_map]
        exact hvalue.objects hnodup
      · -- Items that are not all objects decide only if there is no second one.
        have hlength := hitems.resolve_right hobjects
        rw [List.length_append, List.length_cons] at hlength
        obtain rfl : front = [] := List.length_eq_zero_iff.1 (by omega)
        refine .first ?_ hvalue
        by_contra hall
        refine hobjects fun item hitem => ?_
        cases hfields : item.fields? with
        | none => exact absurd ⟨item, hitem, hfields⟩ hall
        | some entries => rfl

end Json

/-- Inference fails at a tag without meaning exactly when a text that decides the type has one.  So
it does for every text in the example if every item of every array decides. -/
theorem Inferred.infer_unsupported_iff (sample : Json) (declared field : String) :
    ((∃ kind place, Inferred.infer sample declared field = .error (.unsupportedTag kind place)) ↔
      ∃ steps text kind, Decides steps sample (.string text) ∧ UnknownTag text kind) ∧
    ((∀ steps items, Leads steps sample (.array items) → Json.SkipsNothing items) →
      ∀ steps text kind, Leads steps sample (.string text) → UnknownTag text kind →
        ∃ kind place,
          Inferred.infer sample declared field = .error (.unsupportedTag kind place)) := by
  refine ⟨Inferred.exists_unsupported_iff sample declared field, ?_⟩
  intro harrays steps text kind hsteps hunknown
  have hdecides := hsteps.decides harrays
  exact (Inferred.exists_unsupported_iff sample declared field).2
    ⟨steps, text, kind, hdecides, hunknown⟩

theorem unknownTag_env : UnknownTag "<env>ID</env>" "env" := by
  refine unknownTag_iff.2 ⟨rfl, fun known => ?_⟩
  cases known with
  | raw | cookie | localStorage | sessionStorage => decide

/-- Objects that have no key in common. -/
def apartRows : List Json :=
  [.object [("id", .ofNat 1)], .object [("owner", .string "<env>ID</env>")]]

theorem Inferred.infer_unsupported_iff_apartRows :
    (∀ steps items, Leads steps (.object [("rows", .array apartRows)]) (.array items) →
        Json.SkipsNothing items) ∧
      ∃ kind place, Inferred.infer (.object [("rows", .array apartRows)]) "TBody" "body" =
        .error (.unsupportedTag kind place) := by
  have harrays : ∀ steps items, Leads steps (.object [("rows", .array apartRows)]) (.array items) →
      Json.SkipsNothing items := by
    intro steps items hsteps
    have hmem := hsteps.mem_values
    obtain rfl : items = apartRows := by
      simpa [apartRows, Json.values, Json.inner, Json.itemValues, Json.fieldValues, Json.ofNat]
        using hmem
    decide
  have hrow : Leads [.item [Json.object [("id", .ofNat 1)]].length, .key "owner"]
      (.array apartRows) (.string "<env>ID</env>") :=
    .item (.key List.mem_cons_self (.here _))
  have hsteps : Leads _ (.object [("rows", .array apartRows)]) (.string "<env>ID</env>") :=
    .key List.mem_cons_self hrow
  obtain ⟨-, hall⟩ :=
    Inferred.infer_unsupported_iff (.object [("rows", .array apartRows)]) "TBody" "body"
  exact ⟨harrays, hall harrays _ _ _ hsteps unknownTag_env⟩

/-- An array whose second item has a tag without meaning. -/
def passedTag : Json :=
  .array [.string "a", .string "<env>ID</env>"]

/-- A tag without meaning in an item behind the first one goes unnoticed. -/
theorem Inferred.infer_passes_unknown :
    ¬ ∀ (sample : Json) (declared field : String) (steps : List Step) (text kind : String),
      Leads steps sample (.string text) → UnknownTag text kind →
        ∃ kind place,
          Inferred.infer sample declared field = .error (.unsupportedTag kind place) := by
  intro hall
  have hsteps : Leads [.item [Json.string "a"].length] passedTag (.string "<env>ID</env>") :=
    .item (.here _)
  obtain ⟨kind, place, hinfer⟩ :=
    hall passedTag "TBody" "body" _ _ _ hsteps unknownTag_env
  have hok : Inferred.infer passedTag "TBody" "body" =
      .ok ⟨"TBody", .array (.primitive .string), [⟨"TBody", .array (.primitive .string)⟩]⟩ := by
    rfl
  rw [hok] at hinfer
  cases hinfer

end ClientLoom
