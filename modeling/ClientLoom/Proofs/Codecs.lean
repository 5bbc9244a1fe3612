import ClientLoom.Decode.Config
import ClientLoom.Spec.Encode
import ClientLoom.Proofs.GivenPairs

/-!
# Codecs

A codec is a decoder beside an encoder: what the decoder made of any value, it makes again of the
encoding.  Here are the codecs of texts, values of any shape, options, switches, lists and maps,
with the decoders and encoders that configurations have.
-/

namespace ClientLoom

/-! ## Readings of values -/

namespace Reading

mutual

theorem keepable_ofJson : (value : Json) → (ofJson value).keepable = true
  | .null | .bool _ | .number _ | .string _ => rfl
  | .array items => by rw [ofJson, keepable, keepable_ofItems items, Bool.and_true]
  | .object fields => by rw [ofJson, keepable, keepable_ofFields fields, Bool.and_true]

theorem keepable_ofItems : (items : List Json) → itemsKeepable (ofItems items) = true
  | [] => rfl
  | item :: items => by
      rw [ofItems, itemsKeepable, keepable_ofJson item, keepable_ofItems items, Bool.and_true]

theorem keepable_ofFields : (fields : List (String × Json)) →
    fieldsKeepable (ofFields fields) = true
  | [] => rfl
  | (key, value) :: fields => by
      rw [ofFields, fieldsKeepable, keepable_ofJson value, keepable_ofFields fields]
      rfl

end

theorem toFields?_ofFields {fields : List (String × Json)}
    (h : ∀ field ∈ fields, toJson? (ofJson field.2) = some field.2) :
    toFields? (ofFields fields) = some fields := by
  induction fields with
  | nil => rfl
  | cons field fields ih =>
      have hrest := ih fun other hother => h other (List.mem_cons_of_mem field hother)
      simp [ofFields, toFields?, h field List.mem_cons_self, hrest]

mutual

/-- What is kept of a value is kept as it is. -/
theorem toJson?_of_toJson? : (value : Json) → {kept : Json} →
    toJson? (ofJson value) = some kept → toJson? (ofJson kept) = some kept
  | .null, _, h | .bool _, _, h | .number _, _, h | .string _, _, h => by
      obtain rfl := Option.some.inj h
      rfl
  | .array items, kept, h => by
      cases hvalues : toItems? (ofItems items) with
      | none => simp [ofJson, toJson?, hvalues] at h
      | some values =>
          obtain rfl : .array values = kept := by simpa [ofJson, toJson?, hvalues] using h
          simp [ofJson, toJson?, toItems?_of_toItems? items hvalues]
  | .object fields, kept, h => by
      cases hpairs : toFields? (ofFields fields) with
      | none => simp [ofJson, toJson?, hpairs] at h
      | some pairs =>
          obtain rfl : .object (Entries.collect pairs) = kept := by
            simpa [ofJson, toJson?, hpairs] using h
          -- Collecting keeps every key once, so there is nothing left to collect.
          have hkept := toFields?_ofFields fun field hfield =>
            toJson?_of_toFields? fields hpairs field (Entries.mem_of_mem_collect hfield)
          simp [ofJson, toJson?, hkept,
            Entries.collect_of_nodup (Entries.nodup_keys_collect pairs)]

theorem toItems?_of_toItems? : (items : List Json) → {kept : List Json} →
    toItems? (ofItems items) = some kept → toItems? (ofItems kept) = some kept
  | [], _, h => by
      obtain rfl := Option.some.inj h
      rfl
  | item :: items, kept, h => by
      cases hvalue : toJson? (ofJson item) with
      | none => simp [ofItems, toItems?, hvalue] at h
      | some value =>
          cases hvalues : toItems? (ofItems items) with
          | none => simp [ofItems, toItems?, hvalues] at h
          | some values =>
              obtain rfl : value :: values = kept := by
                simpa [ofItems, toItems?, hvalue, hvalues] using h
              simp [ofItems, toItems?, toJson?_of_toJson? item hvalue,
                toItems?_of_toItems? items hvalues]

theorem toJson?_of_toFields? : (fields : List (String × Json)) → {kept : List (String × Json)} →
    toFields? (ofFields fields) = some kept →
      ∀ field ∈ kept, toJson? (ofJson field.2) = some field.2
  | [], _, h => by
      obtain rfl := Option.some.inj h
      exact fun field hfield => by cases hfield
  | (key, value) :: fields, kept, h => by
      cases hvalue : toJson? (ofJson value) with
      | none => simp [ofFields, toFields?, hvalue] at h
      | some first =>
          cases hpairs : toFields? (ofFields fields) with
          | none => simp [ofFields, toFields?, hpairs] at h
          | some pairs =>
              obtain rfl : (key, first) :: pairs = kept := by
                simpa [ofFields, toFields?, hvalue, hpairs] using h
              intro field hfield
              rcases List.mem_cons.1 hfield with rfl | hfield
              · exact toJson?_of_toJson? value hvalue
              · exact toJson?_of_toFields? fields hpairs field hfield

end

end Reading

/-! ## Codecs -/

open Decode

/-- A decoder beside an encoder: what the decoder made of any value, it makes again of the
encoding. -/
structure Codec (α : Type) where
  decode : Reading → Decoded α
  encode : α → Json
  restores : ∀ {value : Json} {result : α}, decode (.ofJson value) = .ok result →
    decode (.ofJson (encode result)) = .ok result

namespace Codec

variable {α : Type}

/-- A text; `expected` says what it is asked for as. -/
def textAs (expected : String) : Codec String where
  decode := Decode.textAs expected
  encode := .string
  restores := fun _ => rfl

/-- A text. -/
def text : Codec String :=
  textAs "a string"

/-- A truth value. -/
def bool : Codec Bool where
  decode := Decode.bool
  encode := .bool
  restores := fun _ => rfl

@[simp] theorem parse_display (method : HttpMethod) :
    HttpMethod.parse method.display = .ok method := by
  cases method with
  | get | post | put | patch | delete => rfl

/-- An HTTP method; it is read in any case and written in upper case. -/
def method : Codec HttpMethod where
  decode := Decode.method
  encode method := .string method.display
  restores := by
    intro _ method _
    exact mapError_eq_ok.2 (parse_display method)

@[simp] theorem json_eq_ok {reading : Reading} {value : Json} :
    Decode.json reading = .ok value ↔ reading.toJson? = some value := by
  unfold Decode.json
  cases reading.toJson? with
  | none => simp
  | some kept => simp

/-- A value of any shape. -/
def json : Codec Json where
  decode := Decode.json
  encode := id
  restores := by
    intro value kept h
    exact json_eq_ok.2 (Reading.toJson?_of_toJson? value (json_eq_ok.1 h))

/-! ### Options -/

theorem option_ofJson {decode : Reading → Decoded α} {value : Json} (h : value ≠ .null) :
    Decode.option decode (.ofJson value) = some <$> decode (.ofJson value) := by
  cases value with
  | null => exact absurd rfl h
  | _ => rfl

/-- Null in the absence of a value.  A value that is there must not be written as null. -/
def option (codec : Codec α) (encode : Option α → Json) (hnone : encode none = .null)
    (hsome : ∀ result, encode (some result) = codec.encode result)
    (hnull : ∀ {value result}, value ≠ .null → codec.decode (.ofJson value) = .ok result →
      codec.encode result ≠ .null) : Codec (Option α) where
  decode := Decode.option codec.decode
  encode := encode
  restores := by
    intro value result h
    cases result with
    | none =>
        rw [hnone]
        rfl
    | some result =>
        have hvalue : value ≠ .null := by
          rintro rfl
          cases h
        -- Both values are not null, so the codec of what is there decides.
        rw [option_ofJson hvalue, map_eq_ok] at h
        obtain ⟨_, hdecode, h⟩ := h
        cases h
        rw [hsome, option_ofJson (hnull hvalue hdecode), codec.restores hdecode]
        rfl

/-- A text, or null in its absence. -/
def optionText : Codec (Option String) :=
  text.option Json.ofText? rfl (fun _ => rfl) fun _ _ => Json.noConfusion

theorem ne_null_of_toJson? {value kept : Json} (hvalue : value ≠ .null)
    (h : (Reading.ofJson value).toJson? = some kept) : kept ≠ .null := by
  rintro rfl
  cases value with
  | null => exact hvalue rfl
  | bool b => cases h
  | number n => cases h
  | string s => cases h
  | array items =>
      rw [Reading.ofJson, Reading.toJson?.eq_def] at h
      dsimp only at h
      split at h
      · cases h
      · cases h
  | object fields =>
      rw [Reading.ofJson, Reading.toJson?.eq_def] at h
      dsimp only at h
      split at h
      · cases h
      · cases h

/-- A value of any shape but null, or null in its absence. -/
def optionJson : Codec (Option Json) :=
  json.option (fun value => value.getD .null) rfl (fun _ => rfl) fun hvalue h =>
    ne_null_of_toJson? hvalue (json_eq_ok.1 h)

/-! ### Switches -/

theorem toggle_eq_options {decode : Reading → Decoded α} {value : Json} {result : α}
    (hvalue : ∀ on, value ≠ .bool on) :
    Decode.toggle decode (.ofJson value) = .ok (.options result) ↔
      decode (.ofJson value) = .ok result := by
  unfold Decode.toggle
  rw [Reading.keepable_ofJson]
  split
  · contradiction
  · split
    · rename_i on hon
      cases value with
      | bool b => exact absurd rfl (hvalue b)
      | _ => cases hon
    · cases decode (.ofJson value) with
      | ok decoded => simp
      | error e => simp

/-- A switch or options, which are written as an object. -/
def toggle (codec : Codec α) (hobject : ∀ result, ∃ fields, codec.encode result = .object fields) :
    Codec (Toggle α) where
  decode := Decode.toggle codec.decode
  encode switch := Toggle.toJson codec.encode (some switch)
  restores := by
    intro value switch h
    cases switch with
    | enabled on => rfl
    | options result =>
        have hvalue : ∀ on, value ≠ .bool on := by
          rintro on rfl
          cases h
        obtain ⟨fields, hfields⟩ := hobject result
        have hencoded : ∀ on, codec.encode result ≠ .bool on := by
          intro on
          rw [hfields]
          exact Json.noConfusion
        exact (toggle_eq_options hencoded).2 (codec.restores ((toggle_eq_options hvalue).1 h))

/-- A switch or options, or null in its absence. -/
def optionToggle (codec : Codec α)
    (hobject : ∀ result, ∃ fields, codec.encode result = .object fields) :
    Codec (Option (Toggle α)) :=
  (codec.toggle hobject).option (Toggle.toJson codec.encode) rfl (fun _ => rfl) <| by
    intro value switch _ _
    cases switch with
    | enabled on => exact Json.noConfusion
    | options result =>
        obtain ⟨fields, hfields⟩ := hobject result
        show codec.encode result ≠ .null
        rw [hfields]
        exact Json.noConfusion

/-! ### Lists -/

theorem restored_of_items (codec : Codec α) {values : List Json} {results : List α}
    (h : Decode.items codec.decode (Reading.ofItems values) = .ok results) :
    ∀ result ∈ results, codec.decode (.ofJson (codec.encode result)) = .ok result := by
  induction values generalizing results with
  | nil =>
      cases h
      exact fun result hresult => by cases hresult
  | cons value values ih =>
      obtain ⟨first, hfirst, h⟩ := bind_eq_ok.1 h
      obtain ⟨rest, hrest, h⟩ := bind_eq_ok.1 h
      cases h
      intro result hresult
      rcases List.mem_cons.1 hresult with rfl | hresult
      · exact codec.restores hfirst
      · exact ih hrest result hresult

theorem items_encoded (codec : Codec α) {results : List α}
    (h : ∀ result ∈ results, codec.decode (.ofJson (codec.encode result)) = .ok result) :
    Decode.items codec.decode (Reading.ofItems (results.map codec.encode)) = .ok results := by
  induction results with
  | nil => rfl
  | cons result results ih =>
      refine bind_eq_ok.2 ⟨result, h result List.mem_cons_self, bind_eq_ok.2 ⟨results, ?_, rfl⟩⟩
      exact ih fun other hother => h other (List.mem_cons_of_mem result hother)

/-- A list. -/
def list (codec : Codec α) : Codec (List α) where
  decode := Decode.list codec.decode
  encode results := .array (results.map codec.encode)
  restores := by
    intro value results h
    cases value with
    | array values =>
        obtain ⟨_, hitems, h⟩ := bind_eq_ok.1 h
        cases h
        exact bind_eq_ok.2 ⟨_, codec.items_encoded (codec.restored_of_items hitems), rfl⟩
    | _ => cases h

/-! ### Maps -/

/-- What the fields of an object gave, the fields of the encoding give again. -/
theorem forall₂_encoded (codec : Codec α) {fields : List (String × Json)}
    {pairs : List (String × α)}
    (h : List.Forall₂ (FieldGives codec.decode) (Reading.ofFields fields) pairs) :
    List.Forall₂ (FieldGives codec.decode)
      (Reading.ofFields (pairs.map fun pair => (pair.1, codec.encode pair.2))) pairs := by
  induction fields generalizing pairs with
  | nil =>
      cases h
      exact .nil
  | cons field fields ih =>
      cases h with
      | cons hfield hfields => exact .cons ⟨rfl, codec.restores hfield.2⟩ (ih hfields)

/-- A map whose keys do not repeat. -/
def map (codec : Codec α) : Codec (OrderedMap α) where
  decode := Decode.map codec.decode
  encode := OrderedMap.toJson codec.encode
  restores := by
    intro value result h
    obtain ⟨pairs, ⟨fields, hfields, hpairs⟩, hnodup, rfl⟩ := map_eq_ok_iff.1 h
    cases value with
    | object values =>
        obtain ⟨rfl, -⟩ := Reading.object.inj hfields
        refine map_eq_ok_iff.2 ⟨pairs, ⟨_, ?_, codec.forall₂_encoded hpairs⟩, hnodup, rfl⟩
        rw [OrderedMap.ofPairs, Entries.collect_of_nodup hnodup]
        rfl
    | _ => cases hfields

end Codec

end ClientLoom
