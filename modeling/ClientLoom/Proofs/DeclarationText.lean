import ClientLoom.Proofs.CaseLetters
import ClientLoom.Proofs.CompiledNames
import ClientLoom.Proofs.TagSearch
import ClientLoom.Proofs.UnionAlternatives
import ClientLoom.Proofs.WrittenKeys

/-!
# Declarations as they are written

The text of the declaration of an object type has one line for each field: the key, a mark if the
field is optional, and the type.  Keys have no line feed in them, since string literals escape it.
Neither have types, as long as the name that an example is declared under has none: the payload of a
tag stands on one line, and all other text is fixed or made of identifier characters.  So the lines
can be told apart, and a line is read from its front: the key, the mark, and then the type up to the
end of the line.
-/

namespace ClientLoom

open Text (isIdentifierChar objectKey trim)
open Walk (Returns returns_pure)

/-! ## Raw texts on one line -/

theorem not_mem_intercalate {α : Type} {a : α} {separator : List α} {parts : List (List α)}
    (hseparator : a ∉ separator) (hparts : ∀ part ∈ parts, a ∉ part) :
    a ∉ separator.intercalate parts := by
  induction parts with
  | nil => simp
  | cons part parts ih =>
      obtain ⟨hpart, hrest⟩ := List.forall_mem_cons.1 hparts
      cases parts with
      | nil => simpa using hpart
      | cons next parts =>
          rw [List.intercalate_cons_cons, List.mem_append, List.mem_append]
          have hih := ih hrest
          tauto

/-- The parts of a type text have the characters of the text. -/
theorem UnionScan.split_subset (scan : UnionScan) (text : List Char) :
    (scan.split text).1 ⊆ text ∧ ∀ part ∈ (scan.split text).2, part ⊆ text := by
  induction text generalizing scan with
  | nil => simp [split]
  | cons c rest ih =>
      obtain ⟨hfirst, hothers⟩ := ih (scan.step c)
      have hfirst' := List.subset_cons_of_subset c hfirst
      have hothers' := fun part hpart => List.subset_cons_of_subset c (hothers part hpart)
      rw [split]
      split_ifs
      · exact ⟨List.nil_subset _, List.forall_mem_cons.2 ⟨hfirst', hothers'⟩⟩
      · exact ⟨List.cons_subset_cons c hfirst, hothers'⟩

theorem subset_of_mem_alternatives {text part : List Char} (h : part ∈ alternatives text) :
    part ⊆ text := by
  obtain ⟨whole, hwhole, rfl⟩ := List.mem_map.1 h
  have htrim : trim whole ⊆ whole := by
    obtain ⟨front, back, hsplit, -⟩ := Text.exists_blanks whole
    intro c hc
    rw [hsplit]
    exact List.mem_append_right _ (List.mem_append_left _ hc)
  obtain ⟨hfirst, hothers⟩ := UnionScan.split_subset {} text
  rcases List.mem_cons.1 hwhole with rfl | hwhole
  · exact List.Subset.trans htrim hfirst
  · exact List.Subset.trans htrim (hothers whole hwhole)

theorem lineFeed_not_mem_optionalLaw {payload : String} (h : '\n' ∉ payload.toList) :
    '\n' ∉ (optionalLaw payload).1.toList := by
  by_cases hundefined : undefinedChars ∈ alternatives payload.toList
  · rw [optionalLaw_of_mem hundefined]
    split_ifs
    · decide
    · rw [String.toList_intercalate]
      refine not_mem_intercalate (by decide) fun part hpart => ?_
      simp only [definedAlternatives, List.map_map, List.mem_map, Function.comp_apply,
        String.toList_ofList, exists_eq_right] at hpart
      exact fun hmem => h (subset_of_mem_alternatives (List.mem_filter.1 hpart).1 hmem)
  · rwa [optionalLaw_of_not_mem hundefined]

/-- A payload stands on one line. -/
theorem Tag.onLine_payload {text : String} {tag : Tag} (h : Tag.find? text = some tag) :
    OnLine tag.payload.toList := by
  obtain ⟨split, hsplit, rfl⟩ := Option.map_eq_some_iff.1 h
  have hvalid := (TagSplit.find?_sound hsplit).2
  simpa [ofSplit] using hvalid.payload_onLine

theorem OnLine.lineFeed_not_mem {cs : List Char} (h : OnLine cs) : '\n' ∉ cs :=
  fun hmem => absurd (h '\n' hmem) (by decide)

namespace Shape

variable {place field payload : String}

/-- The raw text of a field is that of its value, or what the optional law leaves of it. -/
theorem raw_mem_field {key : String} {shape : Shape}
    (h : (place, Leaf.raw payload) ∈ (Shape.field key shape).type.leaves field) :
    ∃ source, (place, Leaf.raw source) ∈ shape.leaves field ∧
      (payload = source ∨ payload = (optionalLaw source).1) := by
  unfold Shape.field at h
  split at h
  · rename_i source
    obtain ⟨rfl, hpayload⟩ : place = field ∧ payload = (optionalLaw source).1 := by
      simpa [leaves] using h
    exact ⟨source, by simp [leaves], .inr hpayload⟩
  · exact ⟨payload, h, .inl rfl⟩

theorem lineFeed_not_mem_raw {sample : Json}
    (h : (place, Leaf.raw payload) ∈ (ofJson sample).leaves field) : '\n' ∉ payload.toList := by
  induction sample using Json.induction_inner generalizing place field payload with
  | step sample ih =>
      -- A field of an object, alone or merged, has the shape of a value inside the example.
      have hfield : ∀ {value : Json} {key place' : String}, value ∈ sample.inner →
          (place, Leaf.raw payload) ∈ (Shape.field key (ofJson value)).type.leaves place' →
          '\n' ∉ payload.toList := by
        intro value key place' hvalue hleaf
        obtain ⟨source, hsource, rfl | rfl⟩ := raw_mem_field hleaf
        · exact ih value hvalue hsource
        · exact lineFeed_not_mem_optionalLaw (ih value hvalue hsource)
      cases sample with
      | null | bool _ | number _ =>
          rw [ofJson] at h
          cases h
      | string text =>
          rw [ofJson, leaves, List.mem_singleton] at h
          obtain ⟨_, tag, -, hfind, -, rfl⟩ :=
            Leaf.ofText_eq_raw_iff.1 (congrArg Prod.snd h).symm
          exact (Tag.onLine_payload hfind).lineFeed_not_mem
      | object entries =>
          rw [ofJson, leaves, ofFields_eq_map] at h
          obtain ⟨member, hmember, hleaf⟩ := mem_fieldLeaves.1 h
          obtain ⟨entry, hentry, rfl⟩ := List.mem_map.1 hmember
          exact hfield (Json.mem_inner_object hentry) hleaf
      | array items =>
          rcases ofJson_array_cases items with ⟨-, hshape⟩ | ⟨kinds, -, hshape⟩ |
            ⟨objects, -, rfl, hshape⟩ | ⟨first, rest, rfl, hshape, -⟩
          · rw [hshape] at h
            cases h
          · rw [hshape] at h
            cases h
          · rw [hshape, leaves, leaves] at h
            obtain ⟨merged, hmerged, hleaf⟩ := mem_fieldLeaves.1 h
            obtain ⟨value, hvalue, htype, -⟩ := exists_of_mem_merge hmerged
            rw [htype] at hleaf
            obtain ⟨entries, hentries, hentry⟩ :=
              List.mem_flatten.1 (Entries.mem_of_get?_eq_some hvalue)
            exact hfield (Json.mem_inner_objects hentries hentry) hleaf
          · rw [hshape, leaves] at h
            exact ih first (Json.mem_inner_array List.mem_cons_self) h

end Shape

/-! ## Types on one line -/

/-- No raw text and no name of an object in the type has a line feed. -/
inductive OneLine : TypeNode → Prop
  | primitive (kind : Primitive) : OneLine (.primitive kind)
  | any : OneLine .any
  | union (members : List Primitive) : OneLine (.union members)
  | raw {text : String} (h : '\n' ∉ text.toList) : OneLine (.raw text)
  | array {element : TypeNode} (h : OneLine element) : OneLine (.array element)
  | object {name : String} {fields : List (Field TypeNode)} (hname : '\n' ∉ name.toList)
      (hfields : ∀ field ∈ fields, OneLine field.type) : OneLine (.object name fields)

namespace OneLine

theorem ofKinds (kinds : List Primitive) : OneLine (.ofKinds kinds) := by
  unfold TypeNode.ofKinds
  split
  · exact .array (.primitive _)
  · exact .array (.union _)

theorem lineFeed_not_mem_keyword (kind : Primitive) : '\n' ∉ kind.keyword.toList := by
  cases kind with
  | string | number | boolean => decide

theorem lineFeed_not_mem_render {type : TypeNode} (h : OneLine type) :
    '\n' ∉ type.render.toList := by
  induction h with
  | primitive kind => exact lineFeed_not_mem_keyword kind
  | any => decide
  | union members =>
      rw [TypeNode.render, String.toList_intercalate]
      refine not_mem_intercalate (by decide) fun part hpart => ?_
      simp only [List.map_map, List.mem_map, Function.comp_apply] at hpart
      obtain ⟨kind, -, rfl⟩ := hpart
      exact lineFeed_not_mem_keyword kind
  | raw htext => exact htext
  | array _ ih =>
      rw [TypeNode.render]
      split_ifs
      · simpa using ih
      · simpa using ih
  | object hname _ _ => exact hname

theorem of_mem_objects {type : TypeNode} (h : OneLine type) {decl : TypeDecl}
    (hdecl : decl ∈ type.objects) : OneLine decl.type := by
  induction h with
  | primitive _ | any | union _ | raw _ => cases hdecl
  | array _ ih =>
      rw [TypeNode.objects] at hdecl
      exact ih hdecl
  | object hname hfields ih =>
      rw [TypeNode.objects] at hdecl
      rcases List.mem_cons.1 hdecl with rfl | hdecl
      · exact .object hname hfields
      · obtain ⟨field, hfield, hobject⟩ := TypeNode.mem_fieldObjects.1 hdecl
        exact ih field hfield hobject

end OneLine

/-- A name is on one line if what it extends is. -/
theorem Extends.lineFeed_not_mem {root name : String} (h : Extends root name)
    (hroot : '\n' ∉ root.toList) : '\n' ∉ name.toList := by
  obtain ⟨suffix, rfl, hsuffix⟩ := h
  rw [String.toList_append, List.mem_append, not_or]
  exact ⟨hroot, fun hmem => absurd (hsuffix '\n' hmem) (by decide)⟩

namespace Shape

mutual

theorem returns_oneLine {name : String} (hname : '\n' ∉ name.toList) (field : String)
    (shape : Shape)
    (hraw : ∀ place payload, (place, Leaf.raw payload) ∈ shape.leaves field →
      '\n' ∉ payload.toList) :
    Returns (shape.declare name field) fun result => OneLine result.1 := by
  match shape with
  | .null =>
      rw [declare]
      exact returns_pure .any
  | .boolean | .number =>
      rw [declare]
      exact returns_pure (.primitive _)
  | .emptyArray =>
      rw [declare]
      exact returns_pure (.array .any)
  | .primitives kinds =>
      rw [declare]
      exact returns_pure (.ofKinds kinds)
  | .text leaf =>
      rw [declare]
      refine (Walk.returns_liftExcept fun type htype => ?_).bind fun type htype =>
        returns_pure htype
      obtain rfl | ⟨payload, rfl, rfl⟩ := Leaf.type_cases htype
      · exact .primitive _
      · exact .raw (hraw field payload (by simp [leaves]))
  | .array element =>
      rw [declare]
      rw [leaves] at hraw
      have hitem : '\n' ∉ (name ++ "Item").toList := by simpa using hname
      exact (returns_oneLine hitem (field ++ "[]") element hraw).bind fun result hresult =>
        returns_pure (.array hresult)
  | .object fields =>
      rw [declare]
      rw [leaves] at hraw
      refine (Walk.returns_claim_extends name).bind fun name' hextends => ?_
      have hname' := hextends.lineFeed_not_mem hname
      exact (returns_fieldsOneLine hname' field fields hraw).bind fun result hresult =>
        returns_pure (.object hname' hresult)

theorem returns_fieldsOneLine {name : String} (hname : '\n' ∉ name.toList) (field : String)
    (fields : List (Field Shape))
    (hraw : ∀ place payload, (place, Leaf.raw payload) ∈ fieldLeaves field fields →
      '\n' ∉ payload.toList) :
    Returns (declareFields name field fields) fun result =>
      ∀ member ∈ result.1, OneLine member.type := by
  match fields with
  | [] =>
      rw [declareFields]
      exact returns_pure (by simp)
  | ⟨key, optional, shape⟩ :: rest =>
      rw [declareFields]
      simp only [fieldLeaves, List.mem_append] at hraw
      have hsegment := (extends_nameSegment name key).lineFeed_not_mem hname
      refine (returns_oneLine hsegment _ shape fun place payload hmem =>
        hraw place payload (.inl hmem)).bind fun first hfirst => ?_
      refine (returns_fieldsOneLine hname field rest fun place payload hmem =>
        hraw place payload (.inr hmem)).bind fun others hothers => ?_
      exact returns_pure (List.forall_mem_cons.2 ⟨hfirst, hothers⟩)

end

end Shape

theorem Inferred.returns_oneLine {declared : String} (hdeclared : '\n' ∉ declared.toList)
    (sample : Json) (field : String) :
    Returns (Inferred.walk sample declared field) fun inferred => OneLine inferred.root := by
  have hraw : ∀ place payload, (place, Leaf.raw payload) ∈ (Shape.ofJson sample).leaves field →
      '\n' ∉ payload.toList := fun _ _ => Shape.lineFeed_not_mem_raw
  rw [Inferred.walk]
  refine (Walk.returns_claim_extends declared).bind fun name hextends => ?_
  have hname := hextends.lineFeed_not_mem hdeclared
  split
  · rename_i fields hshape
    rw [hshape, Shape.leaves] at hraw
    exact (Shape.returns_fieldsOneLine hname field fields hraw).bind fun result hresult =>
      returns_pure (.object hname hresult)
  · exact (Shape.returns_oneLine hname field _ hraw).bind fun result hresult => returns_pure hresult

/-! ## Lines of fields -/

/-- The fields have the same key, are optional alike, and their types have the same text. -/
def SameLine (field field' : Field TypeNode) : Prop :=
  field.key = field'.key ∧ field.optional = field'.optional ∧
    field.type.render = field'.type.render

/-- Two texts are the same in front of the first occurrence of a character, and behind it. -/
theorem append_cons_inj {α : Type} {a : α} {front front' rest rest' : List α} (h : a ∉ front)
    (h' : a ∉ front') (heq : front ++ a :: rest = front' ++ a :: rest') :
    front = front' ∧ rest = rest' := by
  rcases List.append_eq_append_iff.1 heq with ⟨middle, rfl, hrest⟩ | ⟨middle, rfl, hrest⟩
  · cases middle with
    | nil => exact ⟨by simp, (List.cons.inj hrest).2⟩
    | cons b middle =>
        obtain ⟨rfl, -⟩ := List.cons.inj hrest
        exact absurd (List.mem_append_right _ List.mem_cons_self) h'
  · cases middle with
    | nil => exact ⟨by simp, (List.cons.inj hrest).2.symm⟩
    | cons b middle =>
        obtain ⟨rfl, -⟩ := List.cons.inj hrest
        exact absurd (List.mem_append_right _ List.mem_cons_self) h

/-- What stands between the key and the type of a field. -/
def fieldMark (optional : Bool) : List Char :=
  if optional then ['?', ':', ' '] else [':', ' ']

/-- A mark begins with a character that no identifier has. -/
theorem head?_fieldMark_append (optional : Bool) (behind : List Char) :
    ∀ c ∈ (fieldMark optional ++ behind).head?, isIdentifierChar c = false := by
  intro c hc
  cases optional with
  | false =>
      obtain rfl : ':' = c := by simpa [fieldMark] using hc
      decide
  | true =>
      obtain rfl : '?' = c := by simpa [fieldMark] using hc
      decide

theorem fieldMark_append_inj {optional optional' : Bool} {behind behind' : List Char}
    (h : fieldMark optional ++ behind = fieldMark optional' ++ behind') :
    optional = optional' ∧ behind = behind' := by
  cases optional with
  | false =>
      cases optional' with
      | false => exact ⟨rfl, by simpa [fieldMark] using h⟩
      | true => simp [fieldMark] at h
  | true =>
      cases optional' with
      | false => simp [fieldMark] at h
      | true => exact ⟨rfl, by simpa [fieldMark] using h⟩

theorem toList_renderField_append (field : Field TypeNode) (rest : List Char) :
    (TypeNode.renderField field).toList ++ rest =
      ' ' :: ' ' :: ((objectKey field.key).toList ++ (fieldMark field.optional ++
        ((field.type.render.toList ++ [';']) ++ '\n' :: rest))) := by
  cases hoptional : field.optional with
  | false => simp [TypeNode.renderField, fieldMark, hoptional]
  | true => simp [TypeNode.renderField, fieldMark, hoptional]

/-- The line of a field is read from its front: the key, the mark, and the type up to the line feed.
What follows the line is left. -/
theorem sameLine_of_append_eq {field field' : Field TypeNode} {rest rest' : List Char}
    (h : '\n' ∉ field.type.render.toList) (h' : '\n' ∉ field'.type.render.toList)
    (heq : (TypeNode.renderField field).toList ++ rest =
      (TypeNode.renderField field').toList ++ rest') :
    SameLine field field' ∧ rest = rest' := by
  rw [toList_renderField_append, toList_renderField_append] at heq
  have hline := (List.cons.inj (List.cons.inj heq).2).2
  obtain ⟨hkey, hbehind⟩ := ObjectKey.objectKey_append_inj (head?_fieldMark_append _ _)
    (head?_fieldMark_append _ _) hline
  obtain ⟨hoptional, htypes⟩ := fieldMark_append_inj hbehind
  obtain ⟨htype, hrest⟩ := append_cons_inj (by simpa using h) (by simpa using h') htypes
  have hrender := String.toList_inj.1 (List.append_cancel_right htype)
  exact ⟨⟨hkey, hoptional, hrender⟩, hrest⟩

theorem forall₂_sameLine {fields fields' : List (Field TypeNode)} {rest rest' : List Char}
    (h : ∀ field ∈ fields, '\n' ∉ field.type.render.toList)
    (h' : ∀ field ∈ fields', '\n' ∉ field.type.render.toList)
    (heq : (fields.flatMap fun field => (TypeNode.renderField field).toList) ++ '}' :: rest =
      (fields'.flatMap fun field => (TypeNode.renderField field).toList) ++ '}' :: rest') :
    List.Forall₂ SameLine fields fields' := by
  -- A line begins with a blank, and the brace behind the last line does not.
  have hblank : ∀ (field : Field TypeNode) (rest : List Char),
      ∃ line, (TypeNode.renderField field).toList ++ rest = ' ' :: line :=
    fun field rest => ⟨_, toList_renderField_append field rest⟩
  induction fields generalizing fields' with
  | nil =>
      cases fields' with
      | nil => exact .nil
      | cons field' fields' =>
          rw [List.flatMap_cons, List.append_assoc] at heq
          obtain ⟨line, hline⟩ := hblank field'
            ((fields'.flatMap fun field => (TypeNode.renderField field).toList) ++ '}' :: rest')
          simp [hline] at heq
  | cons field fields ih =>
      rw [List.flatMap_cons, List.append_assoc] at heq
      cases fields' with
      | nil =>
          obtain ⟨line, hline⟩ := hblank field
            ((fields.flatMap fun field => (TypeNode.renderField field).toList) ++ '}' :: rest)
          simp [hline] at heq
      | cons field' fields' =>
          rw [List.flatMap_cons, List.append_assoc] at heq
          obtain ⟨hfield, hfields⟩ := List.forall_mem_cons.1 h
          obtain ⟨hfield', hfields'⟩ := List.forall_mem_cons.1 h'
          obtain ⟨hsame, hrest⟩ := sameLine_of_append_eq hfield hfield' heq
          exact .cons hsame (ih hfields hfields' hrest)

theorem toList_renderBody_append (fields : List (Field TypeNode)) (rest : List Char) :
    (TypeNode.renderBody fields).toList ++ rest =
      '{' :: ((if fields.isEmpty then [] else ['\n']) ++
        ((fields.flatMap fun field => (TypeNode.renderField field).toList) ++ '}' :: rest)) := by
  cases fields with
  | nil => rfl
  | cons field fields =>
      simp [TypeNode.renderBody, String.toList_join, List.flatMap_map]

theorem forall₂_sameLine_of_body {fields fields' : List (Field TypeNode)} {rest rest' : List Char}
    (h : ∀ field ∈ fields, '\n' ∉ field.type.render.toList)
    (h' : ∀ field ∈ fields', '\n' ∉ field.type.render.toList)
    (heq : (TypeNode.renderBody fields).toList ++ rest =
      (TypeNode.renderBody fields').toList ++ rest') :
    List.Forall₂ SameLine fields fields' := by
  rw [toList_renderBody_append, toList_renderBody_append] at heq
  have hbody := (List.cons.inj heq).2
  cases fields with
  | nil =>
      cases fields' with
      | nil => exact .nil
      | cons field' fields' => simp at hbody
  | cons field fields =>
      cases fields' with
      | nil => simp at hbody
      | cons field' fields' =>
          simp only [List.isEmpty_cons, Bool.false_eq_true, if_false, List.cons_append,
            List.nil_append] at hbody
          exact forall₂_sameLine h h' (List.cons.inj hbody).2

/-! ## Declarations -/

/-- Inference of some example under the name `declared`, with some registry, gives the declaration,
and it is that of an object type with these fields. -/
def DeclaresObject (declared : String) (decl : TypeDecl) (fields : List (Field TypeNode)) : Prop :=
  ∃ (sample : Json) (place : String) (names : TypeNames) (inferred : Inferred),
    ((Inferred.walk sample declared place).run names).1 = .ok inferred ∧
      decl ∈ inferred.declarations ∧ decl.type.fields? = some fields

namespace DeclaresObject

variable {declared : String} {decl : TypeDecl} {fields : List (Field TypeNode)}

theorem extends_declared (h : DeclaresObject declared decl fields) :
    Extends declared decl.name := by
  obtain ⟨sample, place, names, inferred, hwalk, hdecl, -⟩ := h
  exact Inferred.returns_extends sample declared place names inferred hwalk decl hdecl

/-- The name that an example is declared under stands at the front of the names of its types. -/
theorem lineFeed_not_mem_declared (h : DeclaresObject declared decl fields)
    (hname : '\n' ∉ decl.name.toList) : '\n' ∉ declared.toList := by
  obtain ⟨suffix, hdecl, -⟩ := h.extends_declared
  rw [hdecl, String.toList_append, List.mem_append, not_or] at hname
  exact hname.1

theorem lineFeed_not_mem_fields (h : DeclaresObject declared decl fields)
    (hdeclared : '\n' ∉ declared.toList) : ∀ field ∈ fields, '\n' ∉ field.type.render.toList := by
  obtain ⟨sample, place, names, inferred, hwalk, hdecl, hfields⟩ := h
  have hroot := Inferred.returns_oneLine hdeclared sample place names inferred hwalk
  have hline : OneLine decl.type := by
    rw [(Inferred.returns_preorder sample declared place names inferred hwalk).1] at hdecl
    rcases List.mem_cons.1 hdecl with rfl | hinner
    · exact hroot
    · exact hroot.of_mem_objects (inferred.root.innerObjects_subset hinner)
  generalize decl.type = type at hline hfields
  cases hline with
  | object hname hmembers =>
      obtain rfl := Option.some.inj hfields
      exact fun field hfield => (hmembers field hfield).lineFeed_not_mem_render
  | primitive _ | any | union _ | raw _ | array _ => cases hfields

theorem toList_render (h : DeclaresObject declared decl fields) :
    decl.render.toList = "export type ".toList ++ (decl.name.toList ++
      ' ' :: '=' :: ' ' :: ((TypeNode.renderBody fields).toList ++ [';'])) := by
  obtain ⟨-, -, -, -, -, -, hfields⟩ := h
  obtain ⟨name, type⟩ := decl
  cases type with
  | object typeName members =>
      obtain rfl := Option.some.inj hfields
      have hrender : TypeDecl.render ⟨name, .object typeName members⟩ =
          "export type " ++ name ++ " = " ++ TypeNode.renderBody members ++ ";" := rfl
      rw [hrender]
      simp only [String.toList_append, List.append_assoc]
      rfl
  | primitive _ | any | raw _ | array _ | union _ => cases hfields

end DeclaresObject

/-! ## Names on one line -/

theorem lineBreak_cases {c : Char} (h : isLineBreak c = true) :
    c = '\n' ∨ c = '\r' ∨ c = '\u2028' ∨ c = '\u2029' := by
  simpa [isLineBreak, or_assoc] using h

/-- A line break separates words, and it is in no identifier. -/
theorem isSeparator_of_lineBreak {c : Char} (h : isLineBreak c = true) :
    Text.isSeparator c = true ∧ isIdentifierChar c = false := by
  rcases lineBreak_cases h with rfl | rfl | rfl | rfl
  · decide
  · decide
  · decide
  · decide

/-- No letter case gives a line break, but that of the line break itself. -/
theorem eq_of_lineBreak_mem_case {d : Char} (hd : isLineBreak d = true) (c : Char) :
    (d ∈ Text.upper c → c = d) ∧ (d ∈ Text.lower c → c = d) := by
  have hzero : d.toNat ≠ 0 := by
    rcases lineBreak_cases hd with rfl | rfl | rfl | rfl <;> decide
  have hlong : (∀ entry ∈ Text.upperLong, d ∉ entry.2.map Char.ofNat) ∧
      ∀ entry ∈ Text.lowerLong, d ∉ entry.2.map Char.ofNat := by
    rcases lineBreak_cases hd with rfl | rfl | rfl | rfl <;> decide +kernel
  have hruns : (∀ r ∈ Text.upperRuns, r.covers (d.toNat - r.shift).toNat = false) ∧
      ∀ r ∈ Text.lowerRuns, r.covers (d.toNat - r.shift).toNat = false := by
    rcases lineBreak_cases hd with rfl | rfl | rfl | rfl <;> decide +kernel
  refine ⟨fun h => ?_, fun h => ?_⟩
  · exact (Text.eq_of_mem_caseMap hzero hlong.1 hruns.1 h).1
  · exact (Text.eq_of_mem_caseMap hzero hlong.2 hruns.2 h).1

theorem onLine_pascalCase (name : String) : OnLine (Text.pascalCase name).toList := by
  intro d hd
  rw [Text.toList_pascalCase] at hd
  refine Bool.eq_false_iff.2 fun hbreak => ?_
  have hcases := eq_of_lineBreak_mem_case hbreak
  exact Text.not_mem_pascalChars (isSeparator_of_lineBreak hbreak).1
    (fun c => (hcases c).1) (fun c => (hcases c).2) name.toList hd

/-- The name of a type with identifier characters behind it stands on one line. -/
theorem onLine_of_extends {endpoint : EndpointSpec} {role name : String}
    (hrole : role ∈ endpoint.roles) (h : Extends (endpoint.typeName role) name) :
    OnLine name.toList := by
  obtain ⟨suffix, rfl, hsuffix⟩ := h
  have hroles : ∀ role ∈ ["Params", "Body", "Response"], role.toList.any isLineBreak = false := by
    decide
  intro c hc
  simp only [EndpointSpec.typeName, String.toList_append, List.mem_append] at hc
  rcases hc with ((hc | hc) | hc) | hc
  · obtain rfl : c = 'T' := by simpa using hc
    decide
  · exact onLine_pascalCase endpoint.name c hc
  · have hany := hroles role (endpoint.roles_subset hrole)
    exact Bool.eq_false_iff.2 (List.any_eq_false.1 hany c hc)
  · refine Bool.eq_false_iff.2 fun hbreak => ?_
    have hchar := hsuffix c hc
    rw [(isSeparator_of_lineBreak hbreak).2] at hchar
    cases hchar

/-! ## Unambiguous declarations -/

/-- Two declarations of object types have the same text only if they have the same name and, field
by field, the same keys, marks and types as they are written.  This holds for all examples, as long
as both are declared under one name, or the two declarations themselves have one name, and that name
has no line feed.  Names that come from the Pascal case of the name of an endpoint have no line
break of any kind. -/
theorem declarations_unambiguous :
    (∀ {declared declared' : String} {decl decl' : TypeDecl}
        {fields fields' : List (Field TypeNode)},
      DeclaresObject declared decl fields → DeclaresObject declared' decl' fields' →
      (declared = declared' ∨ decl.name = decl'.name) → '\n' ∉ decl.name.toList →
      decl.render = decl'.render →
      decl.name = decl'.name ∧ List.Forall₂ SameLine fields fields') ∧
    ∀ (endpoint : EndpointSpec) (names : TypeNames) (types : EndpointTypes),
      ((EndpointTypes.walk endpoint).run names).1 = .ok types →
      ∀ decl ∈ types.declarations, OnLine decl.name.toList := by
  refine ⟨fun {declared declared' decl decl' fields fields'} h h' hsame hline htext => ?_,
    fun endpoint names types hwalk decl hdecl => ?_⟩
  · have hchars := congrArg String.toList htext
    rw [h.toList_render, h'.toList_render] at hchars
    have hnamed := List.append_cancel_left hchars
    have hnames : decl.name = decl'.name := by
      rcases hsame with rfl | hnames
      · -- Behind the common beginning, a name ends at the first blank.
        obtain ⟨suffix, hname, hsuffix⟩ := h.extends_declared
        obtain ⟨suffix', hname', hsuffix'⟩ := h'.extends_declared
        have hblank : ∀ {suffix : String}, (∀ c ∈ suffix.toList, isIdentifierChar c = true) →
            ' ' ∉ suffix.toList := fun hchar hmem => absurd (hchar ' ' hmem) (by decide)
        rw [hname, hname', String.toList_append, String.toList_append, List.append_assoc,
          List.append_assoc] at hnamed
        have hsuffixes := (append_cons_inj (hblank hsuffix) (hblank hsuffix')
          (List.append_cancel_left hnamed)).1
        rw [hname, hname', String.toList_inj.1 hsuffixes]
      · exact hnames
    rw [hnames] at hnamed
    have hbodies := (List.cons.inj (List.cons.inj (List.cons.inj
      (List.append_cancel_left hnamed)).2).2).2
    have hline' := h'.lineFeed_not_mem_declared (hnames ▸ hline)
    exact ⟨hnames, forall₂_sameLine_of_body
      (h.lineFeed_not_mem_fields (h.lineFeed_not_mem_declared hline))
      (h'.lineFeed_not_mem_fields hline') hbodies⟩
  · obtain ⟨type, htype, hdecl⟩ := List.mem_flatMap.1 hdecl
    obtain ⟨role, hrole, hextends⟩ :=
      EndpointTypes.returns_roles Inferred.returns_extends endpoint names _ hwalk type htype
    exact onLine_of_extends hrole (hextends decl hdecl)

/-- The second key has a line feed and a mark in it, the second text what ends a field. -/
def crowded (first : Json) : Json :=
  .object [("it's", first), ("a\n?: b", .string "<raw>x; y?: z</raw>")]

/-- The fields of the example, with the type of the first one. -/
def crowdedFields (first : TypeNode) : List (Field TypeNode) :=
  [⟨"it's", false, first⟩, ⟨"a\n?: b", false, .raw "x; y?: z"⟩]

/-- A number and the raw text `number` give the same declaration, and nothing but the first type,
whose text is the same, sets the two apart. -/
theorem declarations_unambiguous_crowded :
    List.Forall₂ SameLine (crowdedFields (.primitive .number)) (crowdedFields (.raw "number")) := by
  have hnumber : DeclaresObject "TBody"
      ⟨"TBody", .object "TBody" (crowdedFields (.primitive .number))⟩
      (crowdedFields (.primitive .number)) :=
    ⟨crowded (.ofNat 5), "body", {}, _, rfl, List.mem_cons_self, rfl⟩
  have hraw : DeclaresObject "TBody" ⟨"TBody", .object "TBody" (crowdedFields (.raw "number"))⟩
      (crowdedFields (.raw "number")) :=
    ⟨crowded (.string "<raw>number</raw>"), "body", {}, _, rfl, List.mem_cons_self, rfl⟩
  exact (declarations_unambiguous.1 hnumber hraw (.inl rfl) (by decide) rfl).2

end ClientLoom
