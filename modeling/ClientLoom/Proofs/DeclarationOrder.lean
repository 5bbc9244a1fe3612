import ClientLoom.Proofs.DeclaredNames
import ClientLoom.Proofs.ExampleShapes
import ClientLoom.Proofs.TypeShapes

/-!
# The order of declarations

The declarations of an example are that of the root and those of the object types inside it, from
the outside in and from left to right.  The fields of object types stand in the order of the
example, and the names are that of the root with identifier characters behind it.
-/

namespace ClientLoom

open Text (isIdentifierChar nameSegment)
open Walk (Returns returns_true returns_pure)

/-! ## Object types inside the root -/

/-- The object types inside a type, itself left out, in the order of `TypeNode.objects`. -/
def TypeNode.innerObjects : TypeNode → List TypeDecl
  | .object _ fields => fieldObjects fields
  | type => type.objects

theorem TypeNode.innerObjects_eq {type : TypeNode} (h : type.fields? = none) :
    type.innerObjects = type.objects := by
  cases type with
  | object name fields => cases h
  | primitive _ | any | raw _ | array _ | union _ => rfl

theorem TypeNode.innerObjects_subset (type : TypeNode) : type.innerObjects ⊆ type.objects := by
  cases type with
  | object name fields => exact List.subset_cons_self _ _
  | primitive _ | any | raw _ | array _ | union _ => exact List.Subset.refl _

/-- Only objects have types of objects. -/
theorem HasShape.fields?_eq_none {type : TypeNode} {shape : Shape} (h : HasShape type shape)
    (hshape : ∀ fields, shape ≠ .object fields) : type.fields? = none := by
  cases h with
  | null | boolean | number | emptyArray | array _ => rfl
  | text hleaf =>
      obtain rfl | ⟨payload, -, rfl⟩ := Leaf.type_cases hleaf
      · rfl
      · rfl
  | primitives kinds =>
      unfold TypeNode.ofKinds
      split
      · rfl
      · rfl
  | object hfields => exact absurd rfl (hshape _)

/-- The root is declared first, and what follows are the object types inside it.  The name of an
object root is that of the example. -/
theorem Inferred.returns_preorder (sample : Json) (declared field : String) :
    Returns (Inferred.walk sample declared field) fun inferred =>
      inferred.declarations = ⟨inferred.name, inferred.root⟩ :: inferred.root.innerObjects ∧
        ∀ name fields, inferred.root = .object name fields → name = inferred.name := by
  rw [Inferred.walk]
  refine (returns_true _).bind fun name _ => ?_
  split
  · refine (Shape.returns_declareFields name field _).bind fun result hdecls => ?_
    refine returns_pure ⟨congrArg (_ :: ·) hdecls, fun name' fields' hroot => ?_⟩
    exact (TypeNode.object.inj hroot).1.symm
  · rename_i hnotObject
    have hboth := (Shape.returns_declare name field (Shape.ofJson sample)).and
      (Shape.returns_hasShape name field (Shape.ofJson sample))
    refine hboth.bind fun result hresult => ?_
    obtain ⟨hdecls, hshape⟩ := hresult
    have hfields := hshape.fields?_eq_none hnotObject
    refine returns_pure ⟨?_, fun name' fields' hroot => ?_⟩
    · rw [TypeNode.innerObjects_eq hfields]
      exact congrArg (_ :: ·) hdecls
    · have hsome : result.1 = .object name' fields' := hroot
      rw [hsome] at hfields
      cases hfields

/-! ## Fields in the order of the example -/

/-- The entries are those of one object for many: every key once, where it first occurs, with its
first value. -/
structure OneForMany (objects : List (Entries Json)) (entries : Entries Json) : Prop where
  keys : entries.keys = (objects.flatMap Entries.keys).eraseDups
  values : ∀ entry ∈ entries, Entries.get? entry.1 objects.flatten = some entry.2

mutual

/-- The fields of every object type in the type stand in the order of the example. -/
inductive InOrder : TypeNode → Json → Prop
  | flat {type : TypeNode} {sample : Json} (h : type.objects = [])
      (hsample : sample.fields? = none) : InOrder type sample
  | object {name : String} {fields : List (Field TypeNode)} {entries : Entries Json}
      (h : FieldsInOrder fields entries) : InOrder (.object name fields) (.object entries)
  | merged {name : String} {fields : List (Field TypeNode)} {objects : List (Entries Json)}
      {entries : Entries Json} (hentries : OneForMany objects entries)
      (h : FieldsInOrder fields entries) :
      InOrder (.array (.object name fields)) (.array (objects.map .object))
  | first {element : TypeNode} {item : Json} {items : List Json}
      (hnoObject : ∃ other ∈ item :: items, other.fields? = none) (h : InOrder element item) :
      InOrder (.array element) (.array (item :: items))

/-- There is a field for each entry, in the same order. -/
inductive FieldsInOrder : List (Field TypeNode) → Entries Json → Prop
  | nil : FieldsInOrder [] []
  | cons {key : String} {optional : Bool} {type : TypeNode} {value : Json}
      {fields : List (Field TypeNode)} {entries : Entries Json} (hfirst : InOrder type value)
      (hrest : FieldsInOrder fields entries) :
      FieldsInOrder (⟨key, optional, type⟩ :: fields) ((key, value) :: entries)

end

namespace Shape

/-- The field has the key of the entry and the shape of its value. -/
def FieldOf (member : Field Shape) (entry : String × Json) : Prop :=
  member.key = entry.1 ∧ member.type = (field entry.1 (ofJson entry.2)).type

theorem forall₂_fieldOf (entries : Entries Json) :
    List.Forall₂ FieldOf (ofFields entries) entries := by
  rw [ofFields_eq_map, List.forall₂_map_left_iff, List.forall₂_same]
  exact fun entry _ => ⟨key_field entry.1 _, rfl⟩

/-- The fields of many objects as one are those of the entries of one object for many. -/
theorem exists_oneForMany (objects : List (Entries Json)) :
    ∃ entries, OneForMany objects entries ∧
      List.Forall₂ FieldOf (merge (objects.map ofFields)) entries := by
  refine ⟨(merge (objects.map ofFields)).map fun merged =>
    (merged.key, (Entries.get? merged.key objects.flatten).getD .null), ⟨?_, ?_⟩, ?_⟩
  · rw [Entries.keys, List.map_map]
    exact map_key_merge_ofFields objects
  · intro entry hentry
    obtain ⟨merged, hmerged, rfl⟩ := List.mem_map.1 hentry
    obtain ⟨value, hvalue, -⟩ := exists_of_mem_merge hmerged
    rw [hvalue, Option.getD_some]
  · rw [List.forall₂_map_right_iff, List.forall₂_same]
    intro merged hmerged
    obtain ⟨value, hvalue, htype, -⟩ := exists_of_mem_merge hmerged
    rw [hvalue, Option.getD_some]
    exact ⟨rfl, htype⟩

end Shape

/-- What makes a field optional changes only types without objects. -/
theorem HasShape.of_field {type : TypeNode} {key : String} {shape : Shape}
    (h : HasShape type (Shape.field key shape).type) :
    HasShape type shape ∨ type.objects = [] ∧ shape.fields? = none := by
  unfold Shape.field at h
  split at h
  · refine .inr ⟨?_, rfl⟩
    cases h with
    | text hleaf => exact Leaf.objects_type hleaf
  · exact .inl h

theorem FieldsHaveShape.inOrder {types : List (Field TypeNode)} {fields : List (Field Shape)}
    {entries : Entries Json} (h : FieldsHaveShape types fields)
    (hfields : List.Forall₂ Shape.FieldOf fields entries)
    (ih : ∀ entry ∈ entries, ∀ type, HasShape type (Shape.ofJson entry.2) → InOrder type entry.2) :
    FieldsInOrder types entries := by
  induction hfields generalizing types with
  | nil =>
      cases h
      exact .nil
  | @cons field entry fields entries hfirst hrest ihrest =>
      obtain ⟨hentry, hentries⟩ := List.forall_mem_cons.1 ih
      obtain ⟨key, value⟩ := entry
      cases h with
      | @cons key' _ _ shape _ _ hshape hshapes =>
          obtain ⟨rfl, rfl⟩ : key' = key ∧ shape = (Shape.field key (Shape.ofJson value)).type :=
            hfirst
          refine .cons ?_ (ihrest hshapes hentries)
          rcases hshape.of_field with hvalue | ⟨hflat, hnone⟩
          · exact hentry _ hvalue
          · rw [Shape.fields?_ofJson] at hnone
            exact .flat hflat (Option.map_eq_none_iff.1 hnone)

/-- A type of the shape of an example stands in the order of the example. -/
theorem HasShape.inOrder {sample : Json} {type : TypeNode}
    (h : HasShape type (Shape.ofJson sample)) : InOrder type sample := by
  induction sample using Json.induction_inner generalizing type with
  | step sample ih =>
      cases sample with
      | null | bool _ | number _ =>
          rw [Shape.ofJson] at h
          cases h
          exact .flat rfl rfl
      | string text =>
          rw [Shape.ofJson] at h
          cases h with
          | text hleaf => exact .flat (Leaf.objects_type hleaf) rfl
      | object entries =>
          rw [Shape.ofJson] at h
          cases h with
          | object hfields =>
              refine .object (hfields.inOrder (Shape.forall₂_fieldOf entries) ?_)
              exact fun entry hentry type => ih entry.2 (Json.mem_inner_object hentry)
      | array items =>
          rcases Shape.ofJson_array_cases items with ⟨rfl, hshape⟩ | ⟨kinds, -, hshape⟩ |
            ⟨objects, -, rfl, hshape⟩ | ⟨first, rest, rfl, hshape, -, hnoObject⟩
          · rw [hshape] at h
            cases h
            exact .flat rfl rfl
          · rw [hshape] at h
            cases h with
            | primitives => exact .flat (TypeNode.objects_ofKinds _) rfl
          · rw [hshape] at h
            obtain ⟨entries, hentries, hmerge⟩ := Shape.exists_oneForMany objects
            cases h with
            | array helement =>
                cases helement with
                | object hfields =>
                    refine .merged hentries (hfields.inOrder hmerge fun entry hentry type => ?_)
                    -- The value of an entry is that of one of the objects.
                    have hmem := Entries.mem_of_get?_eq_some (hentries.values entry hentry)
                    obtain ⟨source, hsource, hvalue⟩ := List.mem_flatten.1 hmem
                    exact ih entry.2 (Json.mem_inner_objects hsource hvalue)
          · rw [hshape] at h
            cases h with
            | array helement =>
                exact .first hnoObject
                  (ih first (Json.mem_inner_array List.mem_cons_self) helement)

/-! ## Names behind the name of the root -/

/-- The name is `root` with identifier characters behind it. -/
def Extends (root name : String) : Prop :=
  ∃ suffix : String, name = root ++ suffix ∧ ∀ c ∈ suffix.toList, isIdentifierChar c = true

namespace Extends

theorem refl (root : String) : Extends root root :=
  ⟨"", String.append_empty.symm, fun c hc => by cases hc⟩

theorem append (root : String) {suffix : String}
    (h : ∀ c ∈ suffix.toList, isIdentifierChar c = true) : Extends root (root ++ suffix) :=
  ⟨suffix, rfl, h⟩

theorem trans {root name longer : String} (h : Extends root name) (h' : Extends name longer) :
    Extends root longer := by
  obtain ⟨suffix, rfl, hsuffix⟩ := h
  obtain ⟨more, rfl, hmore⟩ := h'
  refine ⟨suffix ++ more, String.append_assoc, fun c hc => ?_⟩
  rw [String.toList_append] at hc
  rcases List.mem_append.1 hc with hc | hc
  · exact hsuffix c hc
  · exact hmore c hc

end Extends

theorem extends_nameSegment (root key : String) : Extends root (root ++ nameSegment key) := by
  refine .append root fun c hc => ?_
  rw [nameSegment, String.toList_ofList] at hc
  exact (List.mem_filter.1 hc).2

/-- A name that is taken gets a number behind it. -/
theorem TypeNames.extends_choose (names : TypeNames) (base : String) :
    Extends base (names.choose base) := by
  have hnumber : ∀ n, Extends base (numbered base n) := by
    intro n
    refine .append base fun c hc => ?_
    have hdigit : c.isDigit = true := by
      rw [Nat.toString_eq_repr, Nat.repr, String.toList_ofList] at hc
      exact Nat.isDigit_of_mem_toDigits (by decide) (by decide) hc
    simp [isIdentifierChar, Char.isAlphanum, hdigit]
  rcases names.choose_cases base with hchoose | ⟨n, hchoose⟩
  · rw [hchoose]
    exact .refl base
  · rw [hchoose]
    exact hnumber n

theorem Walk.returns_claim_extends (base : String) : Returns (Walk.claim base) (Extends base) := by
  intro names name hname
  obtain rfl := Except.ok.inj hname
  exact names.extends_choose base

/-- The names of declarations extend a name. -/
def AllExtend (root : String) (decls : List TypeDecl) : Prop :=
  ∀ decl ∈ decls, Extends root decl.name

theorem AllExtend.of_extends {root name : String} {decls : List TypeDecl} (h : AllExtend name decls)
    (hname : Extends root name) : AllExtend root decls :=
  fun decl hdecl => hname.trans (h decl hdecl)

namespace Shape

mutual

theorem returns_allExtend (name field : String) (shape : Shape) :
    Returns (shape.declare name field) fun result => AllExtend name result.2 := by
  match shape with
  | .null | .boolean | .number | .emptyArray | .primitives _ =>
      rw [declare]
      exact returns_pure fun decl hdecl => by cases hdecl
  | .text leaf =>
      rw [declare]
      exact (returns_true _).bind fun type _ => returns_pure fun decl hdecl => by cases hdecl
  | .array element =>
      rw [declare]
      have hchars : "Item".toList.all isIdentifierChar = true := rfl
      have hitem : Extends name (name ++ "Item") := .append name (List.all_eq_true.1 hchars)
      exact (returns_allExtend (name ++ "Item") (field ++ "[]") element).bind fun result hresult =>
        returns_pure (hresult.of_extends hitem)
  | .object fields =>
      rw [declare]
      refine (Walk.returns_claim_extends name).bind fun name' hname => ?_
      refine (returns_fieldsAllExtend name' field fields).bind fun result hresult => ?_
      have hall : AllExtend name' (⟨name', .object name' result.1⟩ :: result.2) :=
        List.forall_mem_cons.2 ⟨.refl name', hresult⟩
      exact returns_pure (hall.of_extends hname)

theorem returns_fieldsAllExtend (name field : String) (fields : List (Field Shape)) :
    Returns (declareFields name field fields) fun result => AllExtend name result.2 := by
  match fields with
  | [] =>
      rw [declareFields]
      exact returns_pure fun decl hdecl => by cases hdecl
  | ⟨key, optional, shape⟩ :: rest =>
      rw [declareFields]
      refine (returns_allExtend _ _ shape).bind fun first hfirst => ?_
      refine (returns_fieldsAllExtend name field rest).bind fun others hothers => ?_
      exact returns_pure (List.forall_mem_append.2
        ⟨hfirst.of_extends (extends_nameSegment name key), hothers⟩)

end

end Shape

theorem Inferred.returns_allExtend (sample : Json) (declared field : String) :
    Returns (Inferred.walk sample declared field) fun inferred =>
      AllExtend inferred.name inferred.declarations := by
  rw [Inferred.walk]
  refine (returns_true _).bind fun name _ => ?_
  split
  · exact (Shape.returns_fieldsAllExtend name field _).bind fun result hresult =>
      returns_pure (List.forall_mem_cons.2 ⟨.refl name, hresult⟩)
  · exact (Shape.returns_allExtend name field _).bind fun result hresult =>
      returns_pure (List.forall_mem_cons.2 ⟨.refl name, hresult⟩)

/-- Wherever inference succeeds, its declarations are that of the root and those of the object types
inside it, each once, a type before those inside it and fields in the order of the example.  The
name of each is that of the root with identifier characters behind it. -/
theorem Inferred.declarations_preorder {sample : Json} {declared field : String} {names : TypeNames}
    {inferred : Inferred} (h : ((Inferred.walk sample declared field).run names).1 = .ok inferred) :
    inferred.declarations = ⟨inferred.name, inferred.root⟩ :: inferred.root.innerObjects ∧
      (∀ name fields, inferred.root = .object name fields → name = inferred.name) ∧
      InOrder inferred.root sample ∧
      ∀ decl ∈ inferred.declarations, ∃ suffix : String,
        decl.name = inferred.name ++ suffix ∧ ∀ c ∈ suffix.toList, isIdentifierChar c = true := by
  obtain ⟨hdecls, hname⟩ := Inferred.returns_preorder sample declared field names inferred h
  have hshape := Inferred.returns_hasShape sample declared field names inferred h
  exact ⟨hdecls, hname, hshape.inOrder, Inferred.returns_allExtend sample declared field names
    inferred h⟩

/-- Objects with keys that are no identifiers, two of which give the same name. -/
def crookedKeys : Json :=
  .array [
    .object [("owner id", .object [("+", .array [.object []])]), ("ü", .null)],
    .object [("owner-id", .object [])]]

theorem Inferred.declarations_preorder_crookedKeys :
    ∃ inferred, ((Inferred.walk crookedKeys "TList" "list").run ⟨["TList"]⟩).1 = .ok inferred ∧
      inferred.declarations = ⟨inferred.name, inferred.root⟩ :: inferred.root.innerObjects ∧
      InOrder inferred.root crookedKeys ∧
      declNames inferred.declarations =
        ["TList2", "TList2Item", "TList2ItemOwnerId", "TList2ItemOwnerIdItem",
          "TList2ItemOwnerId2"] := by
  have hseen : ((Inferred.walk crookedKeys "TList" "list").run ⟨["TList"]⟩).1.toOption.map
      (fun inferred => declNames inferred.declarations) =
      some ["TList2", "TList2Item", "TList2ItemOwnerId", "TList2ItemOwnerIdItem",
        "TList2ItemOwnerId2"] := by
    rfl
  obtain ⟨inferred, hrun, hnames⟩ := exists_of_toOption hseen
  obtain ⟨hdecls, -, horder, -⟩ := Inferred.declarations_preorder hrun
  exact ⟨inferred, hrun, hdecls, horder, hnames⟩

end ClientLoom
