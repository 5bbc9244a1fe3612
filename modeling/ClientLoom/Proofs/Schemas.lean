import ClientLoom.Proofs.Codecs
import Mathlib.Data.List.Pairwise

/-!
# Schemas

The schema of a record says of every field how it is read and written, taken from a record and set.
Whether a record was written as an object or as an array, every field that was decoded came from its
own codec and the others are those of the start; so the object of all fields gives the record back.
The main statement is `Schema.restores`.
-/

namespace ClientLoom

open Decode

/-- A field of a record. -/
structure RecordField (σ : Type) where
  {α : Type}
  name : String
  aliases : List String
  isRequired : Bool
  codec : Codec α
  get : σ → α
  set : α → σ → σ
  get_set : ∀ value record, get (set value record) = value

namespace RecordField

variable {σ : Type}

/-- A field that must be there. -/
abbrev required {α : Type} (name : String) (aliases : List String) (codec : Codec α) (get : σ → α)
    (set : α → σ → σ) (get_set : ∀ value record, get (set value record) = value := by
      intro _ _; rfl) : RecordField σ :=
  { name, aliases, isRequired := true, codec, get, set, get_set }

/-- A field that may be absent. -/
abbrev optional {α : Type} (name : String) (aliases : List String) (codec : Codec α) (get : σ → α)
    (set : α → σ → σ) (get_set : ∀ value record, get (set value record) = value := by
      intro _ _; rfl) : RecordField σ :=
  { name, aliases, isRequired := false, codec, get, set, get_set }

/-- The rule by which a field is decoded. -/
def rule (field : RecordField σ) : FieldRule σ :=
  { name := field.name, aliases := field.aliases, required := field.isRequired,
    store := fun reading record =>
      (fun value => field.set value record) <$> field.codec.decode reading }

/-- The key and value under which the field of a record is written. -/
def write (field : RecordField σ) (record : σ) : String × Json :=
  (field.name, field.codec.encode (field.get record))

/-- The field of a record is decoded from what is written. -/
def Restored (field : RecordField σ) (record : σ) : Prop :=
  field.codec.decode (.ofJson (field.write record).2) = .ok (field.get record)

/-- Setting one of the fields leaves the other one as it is. -/
def Apart (first second : RecordField σ) : Prop :=
  (∀ value record, second.get (first.set value record) = second.get record) ∧
    ∀ value record, first.get (second.set value record) = first.get record

instance : Std.Symm (@Apart σ) where
  symm _ _ h := ⟨h.2, h.1⟩

@[simp] theorem answers_name (field : RecordField σ) : field.rule.answers field.name = true := by
  simp [FieldRule.answers, rule]

theorem store_write {field : RecordField σ} {source : σ} (h : field.Restored source) (record : σ) :
    field.rule.store (.ofJson (field.write source).2) record =
      .ok (field.set (field.get source) record) :=
  map_eq_ok.2 ⟨_, h, rfl⟩

end RecordField

/-- The fields of a record, and the record that decoding starts from. -/
structure Schema (σ : Type) where
  fields : List (RecordField σ)
  start : σ
  /-- A field does not answer the name of a later one. -/
  separated : fields.Pairwise fun earlier later => earlier.rule.answers later.name = false
  apart : fields.Pairwise RecordField.Apart
  /-- A record is known by its fields. -/
  copy : ∀ record, fields.foldl (fun copy field => field.set (field.get record) copy) start = record
  start_restored : ∀ field ∈ fields, field.Restored start

namespace Schema

variable {σ : Type} {schema : Schema σ} {record result : σ}

/-- The rules of the fields. -/
def rules (schema : Schema σ) : List (FieldRule σ) :=
  schema.fields.map RecordField.rule

/-- Every field of a record is decoded from what is written. -/
def Restored (schema : Schema σ) (record : σ) : Prop :=
  ∀ field ∈ schema.fields, field.Restored record

/-! ## What is decoded -/

/-- A field that is stored comes from its codec, and the other fields stay as they are. -/
theorem restored_store {rule : FieldRule σ} {value : Json} (hrule : rule ∈ schema.rules)
    (hrecord : schema.Restored record) (h : rule.store (.ofJson value) record = .ok result) :
    schema.Restored result := by
  obtain ⟨field, hfield, rfl⟩ := List.mem_map.1 hrule
  obtain ⟨stored, hstored, rfl⟩ := map_eq_ok.1 h
  intro other hother
  unfold RecordField.Restored RecordField.write
  -- Two fields are told apart by their places in the schema; other fields keep their values.
  by_cases hsame : other = field
  · subst hsame
    rw [other.get_set]
    exact other.codec.restores hstored
  · rw [(schema.apart.forall hother hfield hsame).2]
    exact hrecord other hother

theorem restored_of_fields {seen seen' : List String} {values : List (String × Json)}
    (hrecord : schema.Restored record)
    (h : Decode.fields schema.rules seen record (Reading.ofFields values) = .ok (seen', result)) :
    schema.Restored result := by
  induction values generalizing seen record with
  | nil =>
      cases h
      exact hrecord
  | cons entry values ih =>
      obtain ⟨key, value⟩ := entry
      rw [Reading.ofFields, Decode.fields] at h
      split at h
      · split at h
        · exact ih hrecord h
        · cases h
      · rename_i rule hrule
        split at h
        · cases h
        · split at h
          · cases h
          · rename_i next hnext
            exact ih (restored_store (List.mem_of_find?_eq_some hrule) hrecord hnext) h

theorem restored_of_positions {expected : String} {index : Nat} {rules : List (FieldRule σ)}
    {values : List Json} {rest : List Reading} (hrules : ∀ rule ∈ rules, rule ∈ schema.rules)
    (hrecord : schema.Restored record)
    (h : Decode.positions expected true index record rules (Reading.ofItems values) =
      .ok (result, rest)) :
    schema.Restored result := by
  induction rules generalizing index record values with
  | nil =>
      cases values with
      | nil =>
          cases h
          exact hrecord
      | cons value values =>
          cases h
          exact hrecord
  | cons rule rules ih =>
      have hothers : ∀ other ∈ rules, other ∈ schema.rules := fun other hother =>
        hrules other (List.mem_cons_of_mem rule hother)
      cases values with
      | nil =>
          rw [Reading.ofItems, Decode.positions] at h
          split at h
          · cases h
          · split at h
            · cases h
            · have hnone : Decode.positions expected true (index + 1) record rules
                  (Reading.ofItems []) = .ok (result, rest) := h
              exact ih hothers hrecord hnone
      | cons value values =>
          rw [Reading.ofItems, Decode.positions] at h
          split at h
          · cases h
          · rename_i next hnext
            exact ih hothers (restored_store (hrules rule List.mem_cons_self) hrecord hnext) h

theorem restored_of_record {name : String} {policy : Surplus} {value : Json}
    (h : Decode.record name policy schema.rules schema.start (.ofJson value) = .ok result) :
    schema.Restored result := by
  cases value with
  | object values =>
      obtain ⟨⟨seen, decoded⟩, hfields, h⟩ := bind_eq_ok.1 h
      obtain ⟨_, -, h⟩ := bind_eq_ok.1 h
      obtain ⟨_, -, h⟩ := bind_eq_ok.1 h
      cases h
      -- The start is restored as a whole, so it does not matter which fields were given.
      exact restored_of_fields schema.start_restored hfields
  | array values =>
      obtain ⟨⟨decoded, rest⟩, hpositions, h⟩ := bind_eq_ok.1 h
      obtain ⟨_, -, h⟩ := bind_eq_ok.1 h
      cases h
      exact restored_of_positions (fun _ => id) schema.start_restored hpositions
  | _ => cases h

/-! ## What is written -/

theorem find?_answers {fields : List (RecordField σ)}
    (h : fields.Pairwise fun earlier later => earlier.rule.answers later.name = false)
    {field : RecordField σ} (hfield : field ∈ fields) :
    (fields.map RecordField.rule).find? (·.answers field.name) = some field.rule := by
  induction fields with
  | nil => cases hfield
  | cons first fields ih =>
      obtain ⟨hfirst, hrest⟩ := List.pairwise_cons.1 h
      rcases List.mem_cons.1 hfield with rfl | hfield
      · exact List.find?_cons_of_pos field.answers_name
      · rw [List.map_cons, List.find?_cons_of_neg (by simp [hfirst field hfield])]
        exact ih hrest hfield

theorem nodup_names (schema : Schema σ) : (schema.fields.map RecordField.name).Nodup := by
  refine List.pairwise_map.2 (schema.separated.imp fun {earlier later} h hname => ?_)
  rw [← hname, earlier.answers_name] at h
  cases h

theorem fields_cons {rules : List (FieldRule σ)} {rule : FieldRule σ} {seen : List String}
    {key : String} {reading : Reading} {rest : List (Option String × Reading)}
    (hfind : rules.find? (·.answers key) = some rule) (hseen : rule.name ∉ seen)
    (hstore : rule.store reading record = .ok result) :
    Decode.fields rules seen record ((some key, reading) :: rest) =
      Decode.fields rules (rule.name :: seen) result rest := by
  rw [Decode.fields, hfind]
  simp only [List.contains_iff_mem, if_neg hseen, hstore]

/-- The fields that are written are decoded one after the other. -/
theorem fields_written {rules : List (FieldRule σ)} {fields : List (RecordField σ)}
    {seen : List String} {copied : σ}
    (hfind : ∀ field ∈ fields, rules.find? (·.answers field.name) = some field.rule)
    (hnames : ((fields.map RecordField.name).reverse ++ seen).Nodup)
    (hrestored : ∀ field ∈ fields, field.Restored record) :
    Decode.fields rules seen copied (Reading.ofFields (fields.map (·.write record))) =
      .ok ((fields.map RecordField.name).reverse ++ seen,
        fields.foldl (fun copy field => field.set (field.get record) copy) copied) := by
  induction fields generalizing seen copied with
  | nil => rfl
  | cons field fields ih =>
      -- Names that were seen are kept with the last one in front.
      have hseen : ((field :: fields).map RecordField.name).reverse ++ seen =
          (fields.map RecordField.name).reverse ++ field.name :: seen := by simp
      rw [hseen] at hnames ⊢
      have hnew : field.name ∉ seen :=
        (List.nodup_cons.1 (List.nodup_append.1 hnames).2.1).1
      have hstore := RecordField.store_write (hrestored field List.mem_cons_self) copied
      refine (fields_cons (hfind field List.mem_cons_self) hnew hstore).trans ?_
      exact ih (fun other hother => hfind other (List.mem_cons_of_mem field hother)) hnames
        fun other hother => hrestored other (List.mem_cons_of_mem field hother)

theorem requireAll_of_seen {seen : List String} {rules : List (FieldRule σ)}
    (h : ∀ rule ∈ rules, rule.name ∈ seen) : Decode.requireAll seen rules = .ok () := by
  induction rules with
  | nil => rfl
  | cons rule rules ih =>
      have hrule : seen.contains rule.name = true := by
        simpa using h rule List.mem_cons_self
      rw [Decode.requireAll, hrule, Bool.not_true, Bool.and_false]
      exact ih fun other hother => h other (List.mem_cons_of_mem rule hother)

theorem record_written (name : String) (policy : Surplus) (h : schema.Restored record) :
    Decode.record name policy schema.rules schema.start
      (.ofJson (.object (schema.fields.map (·.write record)))) = .ok record := by
  have hnames : ((schema.fields.map RecordField.name).reverse ++ []).Nodup := by
    rw [List.append_nil, List.nodup_reverse]
    exact schema.nodup_names
  have hfields : Decode.fields schema.rules [] schema.start
      (Reading.ofFields (schema.fields.map (·.write record))) =
        .ok ((schema.fields.map RecordField.name).reverse ++ [], record) := by
    have hfind : ∀ field ∈ schema.fields,
        schema.rules.find? (·.answers field.name) = some field.rule :=
      fun field hfield => find?_answers schema.separated hfield
    rw [fields_written hfind hnames h, schema.copy]
  have hall : Decode.requireAll ((schema.fields.map RecordField.name).reverse ++ []) schema.rules =
      .ok () := by
    refine requireAll_of_seen fun rule hrule => ?_
    obtain ⟨field, hfield, rfl⟩ := List.mem_map.1 hrule
    rw [List.append_nil, List.mem_reverse]
    exact List.mem_map_of_mem hfield
  exact bind_eq_ok.2 ⟨_, hfields, bind_eq_ok.2 ⟨_, rfl, bind_eq_ok.2 ⟨_, hall, rfl⟩⟩⟩

/-- A record that was decoded from any value is decoded from the object of its fields. -/
theorem restores (schema : Schema σ) {name : String} {policy : Surplus} {value : Json}
    (h : Decode.record name policy schema.rules schema.start (.ofJson value) = .ok result) :
    Decode.record name policy schema.rules schema.start
      (.ofJson (.object (schema.fields.map (·.write result)))) = .ok result :=
  record_written name policy (restored_of_record h)

end Schema

end ClientLoom
