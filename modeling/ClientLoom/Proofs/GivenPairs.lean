import ClientLoom.Decode.Record
import ClientLoom.Proofs.EntryLists
import ClientLoom.Proofs.Outcomes

/-!
# Pairs given to an ordered map

A map is decoded from the fields of an object, where a key that repeats is refused, or collected
from pairs, where it is overwritten in its place; either way, inserts may follow.  The two ways make
the same of pairs whose keys do not repeat, so every map is the collection of the pairs that were
given to it: each key stands once, where it was first given, with the value that it was given last.
The main statement is `OrderedMap.made_holds_given`.
-/

namespace ClientLoom

/-- The key repeats one in front of it, and those in front of it do not repeat. -/
def RepeatsFirst (keys : List String) (key : String) : Prop :=
  ∃ front back, keys = front ++ key :: back ∧ front.Nodup ∧ key ∈ front

theorem RepeatsFirst.not_nodup {keys : List String} {key : String} (h : RepeatsFirst keys key) :
    ¬ keys.Nodup := by
  obtain ⟨front, back, rfl, -, hkey⟩ := h
  intro hnodup
  exact (List.nodup_append.1 hnodup).2.2 key hkey key List.mem_cons_self rfl

/-! ## Decoding of maps -/

namespace Decode

variable {α : Type} {decode : Reading → Decoded α} {reading : Reading} {pairs : List (String × α)}

/-- The field has a key, its value decodes, and the two make the pair. -/
def FieldGives (decode : Reading → Decoded α) (field : Option String × Reading)
    (pair : String × α) : Prop :=
  field.1 = some pair.1 ∧ decode field.2 = .ok pair.2

/-- The reading is an object without a fault between its fields, and these give the pairs. -/
def Gives (decode : Reading → Decoded α) (reading : Reading) (pairs : List (String × α)) : Prop :=
  ∃ fields, reading = .object fields true ∧ List.Forall₂ (FieldGives decode) fields pairs

/-- The value of a field is decoded before its key is looked for among those in front. -/
theorem entries_cons {field : Option String × Reading} {pair : String × α}
    (h : FieldGives decode field pair) (prior : Entries α)
    (fields : List (Option String × Reading)) :
    entries decode prior (field :: fields) =
      if prior.hasKey pair.1 then .error (.duplicateKey pair.1)
      else entries decode (prior ++ [pair]) fields := by
  obtain ⟨key, value⟩ := field
  obtain ⟨rfl, hvalue⟩ := h
  rw [entries, hvalue]
  rfl

theorem exists_fieldGives {field : Option String × Reading} {prior result : Entries α}
    {fields : List (Option String × Reading)}
    (h : entries decode prior (field :: fields) = .ok result) :
    ∃ pair, FieldGives decode field pair := by
  obtain ⟨_ | key, value⟩ := field
  · cases h
  · obtain ⟨decoded, hvalue, -⟩ := bind_eq_ok.1 h
    exact ⟨(key, decoded), rfl, hvalue⟩

theorem forall₂_of_entries {fields : List (Option String × Reading)} {prior result : Entries α}
    (h : entries decode prior fields = .ok result) :
    ∃ pairs, List.Forall₂ (FieldGives decode) fields pairs := by
  induction fields generalizing prior with
  | nil => exact ⟨[], .nil⟩
  | cons field fields ih =>
      obtain ⟨pair, hpair⟩ := exists_fieldGives h
      rw [entries_cons hpair] at h
      split at h
      · cases h
      · obtain ⟨pairs, hpairs⟩ := ih h
        exact ⟨pair :: pairs, .cons hpair hpairs⟩

/-- Fields that all decode are added if no key repeats, and else the first that does is reported. -/
theorem entries_cases {fields : List (Option String × Reading)} {prior : Entries α}
    (hprior : prior.keys.Nodup) (h : List.Forall₂ (FieldGives decode) fields pairs) :
    ((Entries.keys (prior ++ pairs)).Nodup ∧ entries decode prior fields = .ok (prior ++ pairs)) ∨
      ∃ key, RepeatsFirst (Entries.keys (prior ++ pairs)) key ∧
        entries decode prior fields = .error (.duplicateKey key) := by
  -- The entries in front grow with every field; up to the first repeat, their keys are distinct.
  induction h generalizing prior with
  | nil =>
      rw [List.append_nil]
      exact .inl ⟨hprior, rfl⟩
  | @cons field pair fields pairs hpair hpairs ih =>
      rw [entries_cons hpair]
      by_cases hkey : pair.1 ∈ prior.keys
      · have hseen : prior.hasKey pair.1 = true := by
          rwa [← Bool.not_eq_false, Entries.hasKey_eq_false, not_not]
        refine .inr ⟨pair.1, ⟨prior.keys, Entries.keys pairs, ?_, hprior, hkey⟩, if_pos hseen⟩
        simp [Entries.keys]
      · rw [Entries.hasKey_eq_false.2 hkey, List.append_cons]
        exact ih (Entries.nodup_keys_snoc hprior hkey pair.2)

theorem exists_gives {result : OrderedMap α} (h : map decode reading = .ok result) :
    ∃ pairs, Gives decode reading pairs := by
  cases reading with
  | object fields closed =>
      obtain ⟨read, hread, h⟩ := bind_eq_ok.1 h
      obtain ⟨_, hclosed, -⟩ := bind_eq_ok.1 h
      obtain ⟨pairs, hpairs⟩ := forall₂_of_entries hread
      cases closed with
      | true => exact ⟨pairs, fields, rfl, hpairs⟩
      | false => cases hclosed
  | _ => cases h

/-- An object whose fields all decode is decoded to the collection of its pairs if no key repeats,
and else the first key that does is reported. -/
theorem map_cases (h : Gives decode reading pairs) :
    ((Entries.keys pairs).Nodup ∧ map decode reading = .ok (.ofPairs pairs)) ∨
      ∃ key, RepeatsFirst (Entries.keys pairs) key ∧
        map decode reading = .error (.duplicateKey key) := by
  obtain ⟨fields, rfl, hpairs⟩ := h
  have hnone : (Entries.keys ([] : Entries α)).Nodup := List.nodup_nil
  have hcases := entries_cases hnone hpairs
  rw [List.nil_append] at hcases
  rcases hcases with ⟨hnodup, hread⟩ | ⟨key, hrepeats, hread⟩
  · refine .inl ⟨hnodup, ?_⟩
    rw [map, hread, OrderedMap.ofPairs, Entries.collect_of_nodup hnodup]
    rfl
  · refine .inr ⟨key, hrepeats, ?_⟩
    rw [map, hread]
    rfl

/-- A map that was decoded is the collection of the pairs, and no key repeats among these. -/
theorem of_map_eq_ok {result : OrderedMap α} (hgives : Gives decode reading pairs)
    (h : map decode reading = .ok result) :
    (Entries.keys pairs).Nodup ∧ result = .ofPairs pairs := by
  rcases map_cases hgives with ⟨hnodup, hread⟩ | ⟨key, -, hread⟩
  · rw [hread] at h
    exact ⟨hnodup, (Except.ok.inj h).symm⟩
  · rw [hread] at h
    cases h

theorem map_eq_ok_iff {result : OrderedMap α} :
    map decode reading = .ok result ↔ ∃ pairs, Gives decode reading pairs ∧
      (Entries.keys pairs).Nodup ∧ result = .ofPairs pairs := by
  constructor
  · intro h
    obtain ⟨pairs, hgives⟩ := exists_gives h
    exact ⟨pairs, hgives, of_map_eq_ok hgives h⟩
  · rintro ⟨pairs, hgives, hnodup, rfl⟩
    rcases map_cases hgives with ⟨-, hread⟩ | ⟨key, hrepeats, -⟩
    · exact hread
    · exact absurd hnodup hrepeats.not_nodup

end Decode

/-! ## What a map holds -/

namespace OrderedMap

variable {α : Type} {map : OrderedMap α} {pairs : List (String × α)}

/-- The value is that of the last pair with the key. -/
def GivenLast (pairs : List (String × α)) (key : String) (value : α) : Prop :=
  ∃ front back, pairs = front ++ (key, value) :: back ∧ key ∉ Entries.keys back

/-- The map holds the pairs: the keys are those of the pairs, each once and in the order in which
they first stand there, and the value of a key is the one that stands there last. -/
structure Holds (map : OrderedMap α) (pairs : List (String × α)) : Prop where
  nodup : map.keys.Nodup
  mem_keys : ∀ key, key ∈ map.keys ↔ key ∈ Entries.keys pairs
  order : map.keys.Pairwise fun key later =>
    (Entries.keys pairs).idxOf key < (Entries.keys pairs).idxOf later
  get? : ∀ key value, map.get? key = some value ↔ GivenLast pairs key value

/-- A map that was decoded, collected or made by an insert, with all the pairs that were given to
it, in the order in which they were given. -/
inductive Made : OrderedMap α → List (String × α) → Prop
  | decoded {decode : Reading → Decode.Decoded α} {reading : Reading} {pairs : List (String × α)}
      {map : OrderedMap α} (hgives : Decode.Gives decode reading pairs)
      (h : Decode.map decode reading = .ok map) : Made map pairs
  | collected (pairs : List (String × α)) : Made (.ofPairs pairs) pairs
  | inserted {pairs : List (String × α)} {map : OrderedMap α} (h : Made map pairs) (key : String)
      (value : α) : Made (map.insert key value) (pairs ++ [(key, value)])

@[simp] theorem ofPairs_snoc (pairs : List (String × α)) (pair : String × α) :
    ofPairs (pairs ++ [pair]) = (ofPairs pairs).insert pair.1 pair.2 :=
  congrArg OrderedMap.mk (Entries.collect_snoc pairs pair)

theorem keys_insert_of_mem {key : String} (h : key ∈ map.keys) (value : α) :
    (map.insert key value).keys = map.keys :=
  Entries.keys_put_of_mem h value

theorem keys_insert_of_not_mem {key : String} (h : key ∉ map.keys) (value : α) :
    (map.insert key value).keys = map.keys ++ [key] := by
  show (map.entries.put key value).keys = map.entries.keys ++ [key]
  rw [Entries.put_of_get?_eq_none (Entries.get?_eq_none_iff.2 h), Entries.keys_snoc]

theorem givenLast_snoc (pairs : List (String × α)) (name key : String) (given value : α) :
    GivenLast (pairs ++ [(name, given)]) key value ↔
      if key = name then given = value else GivenLast pairs key value := by
  constructor
  · rintro ⟨front, back, hsplit, hback⟩
    -- Nothing stands behind the last pair with the key, or the pair that was added last does.
    rcases List.eq_nil_or_concat' back with rfl | ⟨back, last, rfl⟩
    · obtain ⟨-, hlast⟩ := List.append_inj' hsplit rfl
      obtain ⟨rfl, rfl⟩ : name = key ∧ given = value := by simpa using hlast
      rw [if_pos rfl]
    · rw [← List.cons_append, ← List.append_assoc] at hsplit
      obtain ⟨rfl, hlast⟩ := List.append_inj' hsplit rfl
      obtain rfl : (name, given) = last := by simpa using hlast
      rw [Entries.keys_snoc, List.mem_append, not_or, List.mem_singleton] at hback
      rw [if_neg hback.2]
      exact ⟨front, back, rfl, hback.1⟩
  · intro h
    split at h
    · rename_i hkey
      subst hkey h
      exact ⟨pairs, [], rfl, List.not_mem_nil⟩
    · rename_i hkey
      obtain ⟨front, back, rfl, hback⟩ := h
      refine ⟨front, back ++ [(name, given)], by simp, ?_⟩
      rw [Entries.keys_snoc, List.mem_append, not_or, List.mem_singleton]
      exact ⟨hback, hkey⟩

namespace Holds

theorem get?_eq_none_iff (h : map.Holds pairs) (key : String) :
    map.get? key = none ↔ key ∉ Entries.keys pairs := by
  rw [← h.mem_keys]
  exact Entries.get?_eq_none_iff

theorem mem_entries_iff (h : map.Holds pairs) (key : String) (value : α) :
    (key, value) ∈ map.entries ↔ GivenLast pairs key value := by
  rw [← h.get?]
  exact ⟨Entries.get?_of_mem_of_nodup h.nodup, Entries.mem_of_get?_eq_some⟩

theorem empty : (OrderedMap.empty : OrderedMap α).Holds [] where
  nodup := List.nodup_nil
  mem_keys _ := Iff.rfl
  order := List.Pairwise.nil
  get? key value := by
    simp [OrderedMap.get?, OrderedMap.empty, Entries.get?, GivenLast]

/-- The places of the keys do not change with another pair, and a new key stands behind all. -/
theorem order_insert (h : map.Holds pairs) (key : String) (value : α) :
    (map.insert key value).keys.Pairwise fun name later =>
      (Entries.keys (pairs ++ [(key, value)])).idxOf name <
        (Entries.keys (pairs ++ [(key, value)])).idxOf later := by
  have hplace : ∀ name ∈ map.keys, (Entries.keys (pairs ++ [(key, value)])).idxOf name =
      (Entries.keys pairs).idxOf name := by
    intro name hname
    rw [Entries.keys_snoc, List.idxOf_append_of_mem ((h.mem_keys name).1 hname)]
  have hkept : map.keys.Pairwise fun name later =>
      (Entries.keys (pairs ++ [(key, value)])).idxOf name <
        (Entries.keys (pairs ++ [(key, value)])).idxOf later := by
    refine h.order.imp_of_mem fun {name later} hname hlater hlt => ?_
    rwa [hplace name hname, hplace later hlater]
  by_cases hkey : key ∈ map.keys
  · rwa [keys_insert_of_mem hkey]
  · rw [keys_insert_of_not_mem hkey, List.pairwise_append]
    refine ⟨hkept, List.pairwise_singleton _ key, fun name hname later hlater => ?_⟩
    obtain rfl := List.mem_singleton.1 hlater
    rw [hplace name hname, Entries.keys_snoc,
      List.idxOf_append_of_notMem fun hmem => hkey ((h.mem_keys _).2 hmem)]
    have hlt := List.idxOf_lt_length_of_mem ((h.mem_keys name).1 hname)
    omega

/-- One more pair: its key keeps its place or gets the last one, and all other keys keep theirs. -/
theorem insert (h : map.Holds pairs) (key : String) (value : α) :
    (map.insert key value).Holds (pairs ++ [(key, value)]) where
  nodup := Entries.nodup_keys_put h.nodup key value
  mem_keys name := by
    rw [Entries.keys_snoc, List.mem_append, List.mem_singleton, ← h.mem_keys]
    by_cases hkey : key ∈ map.keys
    · rw [keys_insert_of_mem hkey]
      exact ⟨.inl, fun hname => hname.elim id fun heq => heq ▸ hkey⟩
    · rw [keys_insert_of_not_mem hkey, List.mem_append, List.mem_singleton]
  order := h.order_insert key value
  get? name found := by
    rw [givenLast_snoc, ← h.get?]
    show Entries.get? name (map.entries.put key value) = some found ↔ _
    rw [Entries.get?_put]
    split
    · rw [Option.some.injEq]
    · rfl

end Holds

theorem holds_ofPairs (pairs : List (String × α)) : (ofPairs pairs).Holds pairs := by
  induction pairs using List.reverseRecOn with
  | nil => exact Holds.empty
  | append_singleton pairs pair ih =>
      rw [ofPairs_snoc]
      exact ih.insert pair.1 pair.2

/-- However a map was made, it is the collection of the pairs that were given to it. -/
theorem Made.eq_ofPairs (h : Made map pairs) : map = ofPairs pairs := by
  induction h with
  | decoded hgives h => exact (Decode.of_map_eq_ok hgives h).2
  | collected pairs => rfl
  | inserted h key value ih => rw [ofPairs_snoc, ih]

theorem Made.holds (h : Made map pairs) : map.Holds pairs := by
  rw [h.eq_ofPairs]
  exact holds_ofPairs pairs

/-- A map that was decoded, collected or made by inserts from such a map has every key that was
given to it once, in the order in which the keys were first given; a key has the value that it was
given last, and none if it was never given; and a key that is given again stays where it is.  What
is decoded is always an object with fields that all decode.  Of such an object there is a map
exactly if no key repeats, and it is the collection of the same pairs; otherwise the first key that
repeats one in front of it is reported by its name. -/
theorem made_holds_given :
    (∀ (map : OrderedMap α) (pairs : List (String × α)), Made map pairs →
      map.Holds pairs ∧
      (∀ key, map.get? key = none ↔ key ∉ Entries.keys pairs) ∧
      (∀ key value, (key, value) ∈ map.entries ↔ GivenLast pairs key value) ∧
      ∀ key value, key ∈ map.keys → (map.insert key value).keys = map.keys) ∧
    ∀ (decode : Reading → Decode.Decoded α) (reading : Reading),
      (∀ map, Decode.map decode reading = .ok map → ∃ pairs, Decode.Gives decode reading pairs) ∧
      ∀ pairs, Decode.Gives decode reading pairs →
        ((∃ map, Decode.map decode reading = .ok map) ↔ (Entries.keys pairs).Nodup) ∧
        (∀ map, Decode.map decode reading = .ok map → map = ofPairs pairs) ∧
        (¬ (Entries.keys pairs).Nodup → ∃ key, RepeatsFirst (Entries.keys pairs) key ∧
          Decode.map decode reading = .error (.duplicateKey key) ∧
          DecodeError.message? (.duplicateKey key) = some ("duplicate key '" ++ key ++ "'")) := by
  constructor
  · intro map pairs h
    exact ⟨h.holds, h.holds.get?_eq_none_iff, h.holds.mem_entries_iff,
      fun key value hkey => keys_insert_of_mem hkey value⟩
  · intro decode reading
    refine ⟨fun map h => Decode.exists_gives h, fun pairs hgives => ⟨⟨?_, fun hnodup => ?_⟩,
      fun map h => (Decode.of_map_eq_ok hgives h).2, fun hnot => ?_⟩⟩
    · rintro ⟨map, h⟩
      exact (Decode.of_map_eq_ok hgives h).1
    · exact ⟨ofPairs pairs, Decode.map_eq_ok_iff.2 ⟨pairs, hgives, hnodup, rfl⟩⟩
    · rcases Decode.map_cases hgives with ⟨hnodup, -⟩ | ⟨key, hrepeats, hread⟩
      · exact absurd hnodup hnot
      · exact ⟨key, hrepeats, hread, rfl⟩

/-- Two headers as they are written. -/
def headerFields : Reading :=
  .object [(some "X-Trace", .string "b"), (some "Accept", .string "a")] true

/-- The two headers, then one of them with another value, and a third. -/
def headerPairs : List (String × String) :=
  [("X-Trace", "b"), ("Accept", "a"), ("X-Trace", "c"), ("Host", "d")]

/-- An object with two keys; the one that stands first is the last to repeat. -/
def crossedFields : Reading :=
  .object [(some "a", .string "1"), (some "b", .string "2"), (some "b", .string "3"),
    (some "a", .string "4")] true

/-- The pairs that its fields give. -/
def crossedPairs : List (String × String) :=
  [("a", "1"), ("b", "2"), ("b", "3"), ("a", "4")]

theorem made_holds_given_headers :
    (∃ map : OrderedMap String, Made map headerPairs ∧ map.Holds headerPairs ∧
      map.entries = [("X-Trace", "c"), ("Accept", "a"), ("Host", "d")]) ∧
    Decode.Gives Decode.text crossedFields crossedPairs ∧ ¬ (Entries.keys crossedPairs).Nodup ∧
    ∃ key, RepeatsFirst (Entries.keys crossedPairs) key ∧
      Decode.map Decode.text crossedFields = .error (.duplicateKey key) ∧
      DecodeError.message? (.duplicateKey key) = some ("duplicate key '" ++ key ++ "'") := by
  have hheaders : Decode.Gives Decode.text headerFields [("X-Trace", "b"), ("Accept", "a")] :=
    ⟨_, rfl, .cons ⟨rfl, rfl⟩ (.cons ⟨rfl, rfl⟩ .nil)⟩
  have hmade := ((Made.decoded hheaders rfl).inserted "X-Trace" "c").inserted "Host" "d"
  have hcrossed : Decode.Gives Decode.text crossedFields crossedPairs :=
    ⟨_, rfl, .cons ⟨rfl, rfl⟩ (.cons ⟨rfl, rfl⟩ (.cons ⟨rfl, rfl⟩ (.cons ⟨rfl, rfl⟩ .nil)))⟩
  have hrepeats : ¬ (Entries.keys crossedPairs).Nodup := by decide
  refine ⟨⟨_, hmade, (made_holds_given.1 _ _ hmade).1, by decide⟩, hcrossed, hrepeats, ?_⟩
  exact ((made_holds_given.2 Decode.text crossedFields).2 crossedPairs hcrossed).2.2 hrepeats

end OrderedMap

end ClientLoom
