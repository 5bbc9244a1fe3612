import ClientLoom.Entries
import Mathlib.Data.List.Induction
import Mathlib.Data.List.Nodup

/-!
# Keys of ordered entries

A value that is put under a new key is added at the end, and keys do not come to repeat.  Pairs that
are collected keep their first places and last values; where no key repeats they are left as they
are.
-/

namespace ClientLoom.Entries

variable {α : Type} {entries : Entries α} {key : String}

@[simp] theorem get?_eq_none_iff : entries.get? key = none ↔ key ∉ entries.keys := by
  induction entries with
  | nil => simp [get?, keys]
  | cons entry rest ih =>
      obtain ⟨k, v⟩ := entry
      by_cases hk : k = key
      · simp [get?, keys, hk]
      · simp only [get?, hk, if_false, ih]
        simp [keys, Ne.symm hk]

theorem mem_of_get?_eq_some {value : α} (h : entries.get? key = some value) :
    (key, value) ∈ entries := by
  induction entries with
  | nil => cases h
  | cons entry rest ih =>
      obtain ⟨k, v⟩ := entry
      rw [get?] at h
      split at h
      · rename_i hk
        rw [hk, Option.some.inj h]
        exact List.mem_cons_self
      · exact List.mem_cons_of_mem _ (ih h)

@[simp] theorem hasKey_eq_false : entries.hasKey key = false ↔ key ∉ entries.keys := by
  unfold hasKey keys
  rw [List.any_eq_false, List.mem_map, not_exists]
  simp only [beq_iff_eq, not_and]

@[simp] theorem get?_append (entries more : Entries α) (key : String) :
    get? key (entries ++ more) = (get? key entries).or (get? key more) := by
  induction entries with
  | nil => rfl
  | cons entry rest ih =>
      obtain ⟨k, v⟩ := entry
      rw [List.cons_append, get?, get?, ih]
      split
      · rfl
      · rfl

theorem get?_snoc (entries : Entries α) (key name : String) (value : α) :
    get? name (entries ++ [(key, value)]) =
      (get? name entries).or (if key = name then some value else none) :=
  get?_append entries [(key, value)] name

/-- The first value of a key among the entries of many is that of the first one with the key. -/
@[simp] theorem get?_flatten (objects : List (Entries α)) (key : String) :
    get? key objects.flatten = objects.findSome? (get? key) := by
  induction objects with
  | nil => rfl
  | cons entries objects ih =>
      rw [List.flatten_cons, get?_append, ih, List.findSome?_cons]
      cases get? key entries with
      | none => rfl
      | some value => rfl

theorem get?_filter_ne (entries : Entries α) (key name : String) :
    get? key (entries.filter fun entry => entry.1 != name) =
      if key = name then none else entries.get? key := by
  induction entries with
  | nil => simp [get?]
  | cons entry rest ih =>
      obtain ⟨k, v⟩ := entry
      rw [List.filter_cons, get?, apply_ite (get? key), get?, ih]
      grind

theorem get?_of_mem_of_nodup (hnodup : entries.keys.Nodup) {value : α} (h : (key, value) ∈ entries) :
    entries.get? key = some value := by
  cases hget : entries.get? key with
  | none => exact absurd (List.mem_map_of_mem h) (get?_eq_none_iff.1 hget)
  | some first =>
      have hfirst := mem_of_get?_eq_some hget
      rw [(Prod.mk.inj (List.inj_on_of_nodup_map hnodup hfirst h rfl)).2]

@[simp] theorem keys_snoc (entries : Entries α) (key : String) (value : α) :
    keys (entries ++ [(key, value)]) = entries.keys ++ [key] :=
  List.map_append

theorem nodup_keys_snoc (hnodup : entries.keys.Nodup) (hnew : key ∉ entries.keys) (value : α) :
    (keys (entries ++ [(key, value)])).Nodup := by
  rw [keys_snoc, ← List.concat_eq_append]
  exact hnodup.concat hnew

theorem not_mem_keys_of_nodup {entry : String × α} {rest : Entries α}
    (h : (keys (entries ++ entry :: rest)).Nodup) : entry.1 ∉ entries.keys := by
  rw [keys, List.map_append] at h
  exact fun hmem => (List.nodup_append.1 h).2.2 _ hmem _ List.mem_cons_self rfl

/-! ## Putting and collecting -/

theorem put_of_get?_eq_none (h : entries.get? key = none) (value : α) :
    entries.put key value = entries ++ [(key, value)] := by
  induction entries with
  | nil => rfl
  | cons entry rest ih =>
      obtain ⟨k, v⟩ := entry
      by_cases hk : k = key
      · simp [get?, hk] at h
      · simp only [get?, hk, if_false] at h
        simp [put, hk, ih h]

@[simp] theorem get?_put (entries : Entries α) (key name : String) (value : α) :
    get? key (put entries name value) = if key = name then some value else entries.get? key := by
  induction entries with
  | nil => simp [put, get?, eq_comm]
  | cons entry rest ih =>
      obtain ⟨k, v⟩ := entry
      rw [put, apply_ite (get? key), get?, get?, get?, ih]
      grind

theorem keys_put_of_mem (h : key ∈ entries.keys) (value : α) :
    (put entries key value).keys = entries.keys := by
  induction entries with
  | nil => cases h
  | cons entry rest ih =>
      obtain ⟨k, v⟩ := entry
      by_cases hk : k = key
      · rw [put, if_pos hk]
        rfl
      · rw [put, if_neg hk]
        exact congrArg (k :: ·) (ih ((List.mem_cons.1 h).resolve_left (Ne.symm hk)))

theorem nodup_keys_put (h : entries.keys.Nodup) (key : String) (value : α) :
    (put entries key value).keys.Nodup := by
  by_cases hkey : key ∈ entries.keys
  · rw [keys_put_of_mem hkey]
    exact h
  · rw [put_of_get?_eq_none (get?_eq_none_iff.2 hkey)]
    exact nodup_keys_snoc h hkey value

theorem of_mem_put {entry : String × α} {value : α} (h : entry ∈ put entries key value) :
    entry ∈ entries ∨ entry = (key, value) := by
  induction entries with
  | nil => exact .inr (List.mem_singleton.1 h)
  | cons first rest ih =>
      obtain ⟨k, v⟩ := first
      rw [put] at h
      split at h
      · rename_i hk
        rcases List.mem_cons.1 h with rfl | h
        · exact .inr (by rw [hk])
        · exact .inl (List.mem_cons_of_mem _ h)
      · rcases List.mem_cons.1 h with rfl | h
        · exact .inl List.mem_cons_self
        · exact (ih h).imp_left (List.mem_cons_of_mem _)

@[simp] theorem collect_snoc (pairs : List (String × α)) (pair : String × α) :
    collect (pairs ++ [pair]) = put (collect pairs) pair.1 pair.2 := by
  rw [collect, List.foldl_append]
  rfl

theorem nodup_keys_collect (pairs : List (String × α)) : (collect pairs).keys.Nodup := by
  induction pairs using List.reverseRecOn with
  | nil => exact List.nodup_nil
  | append_singleton pairs pair ih =>
      rw [collect_snoc]
      exact nodup_keys_put ih pair.1 pair.2

theorem mem_of_mem_collect {pairs : List (String × α)} {entry : String × α}
    (h : entry ∈ collect pairs) : entry ∈ pairs := by
  induction pairs using List.reverseRecOn with
  | nil => exact h
  | append_singleton pairs pair ih =>
      rw [collect_snoc] at h
      apply List.mem_append.2
      exact (of_mem_put h).imp ih fun hentry => List.mem_singleton.2 hentry

theorem collect_of_nodup {pairs : List (String × α)} (h : (keys pairs).Nodup) :
    collect pairs = pairs := by
  induction pairs using List.reverseRecOn with
  | nil => rfl
  | append_singleton pairs pair ih =>
      have hnew := get?_eq_none_iff.2 (not_mem_keys_of_nodup h)
      rw [keys_snoc] at h
      rw [collect_snoc, ih h.of_append_left, put_of_get?_eq_none hnew]

end ClientLoom.Entries
