import Mathlib.Data.List.Nodup
import Stencil.OrderedMap

/-!
# Keys and values of rewritten maps

What setting many entries at once, and changing every key, does to the keys and the values of a map.

* `OrderedMap.get?_eq_some_iff` — the value under a key is that of its entry;
* `OrderedMap.insert_eq_self` — a value set where it is already;
* `OrderedMap.get?_insertAll`, `OrderedMap.keys_insertAll` — the entries of one map set in another;
* `OrderedMap.mem_keys_mapKeys`, `OrderedMap.get?_mapKeys` — a map with other keys, at a key that
  only one key of the map turns into;
* `OrderedMap.mapKeys_mapKeys` — a map whose keys are changed and changed back.
-/

namespace Stencil.OrderedMap

variable {α β : Type}

/-! ## Keys and entries -/

theorem get?_eq_some_iff {m : OrderedMap α} {key : String} {value : α} :
    m.get? key = some value ↔ (key, value) ∈ m.entries := by
  obtain ⟨entries, nodup⟩ := m
  change entries.lookup key = some value ↔ (key, value) ∈ entries
  induction entries with
  | nil => simp
  | cons e es ih =>
    rw [List.map_cons, List.nodup_cons] at nodup
    have key_notin : ∀ v, (e.1, v) ∉ es := fun v hv =>
      nodup.1 (List.mem_map.2 ⟨_, hv, rfl⟩)
    rw [List.lookup_cons, List.mem_cons, Prod.ext_iff]
    by_cases hk : key = e.1
    · subst hk
      simp [key_notin, eq_comm]
    · rw [beq_false_of_ne hk, ih nodup.2]
      simp [hk]

theorem mem_keys_iff {m : OrderedMap α} {key : String} :
    key ∈ m.keys ↔ ∃ value, m.get? key = some value := by
  rw [← contains_iff, contains, Option.isSome_iff_exists]

theorem get?_eq_none_iff {m : OrderedMap α} {key : String} : m.get? key = none ↔ key ∉ m.keys := by
  rw [mem_keys_iff, not_exists, Option.eq_none_iff_forall_ne_some]

theorem mem_keys_of_get? {m : OrderedMap α} {key : String} {value : α}
    (h : m.get? key = some value) : key ∈ m.keys := mem_keys_iff.2 ⟨value, h⟩

@[simp] theorem keys_map (m : OrderedMap α) (f : String → α → β) : (m.map f).keys = m.keys := by
  simp only [keys, map, List.map_map]
  rfl

theorem mem_keys_filter {m : OrderedMap α} {p : String → α → Bool} {key : String} :
    key ∈ (m.filter p).keys ↔ ∃ value, m.get? key = some value ∧ p key value := by
  simp [mem_keys_iff, Option.filter_eq_some_iff]

theorem mem_keys_insert {m : OrderedMap α} {key k : String} {value : α} :
    k ∈ (m.insert key value).keys ↔ k = key ∨ k ∈ m.keys := by
  rw [mem_keys_iff, get?_insert, mem_keys_iff]
  by_cases h : k = key <;> simp [h]

theorem keys_insert (m : OrderedMap α) (key : String) (value : α) :
    (m.insert key value).keys = if key ∈ m.keys then m.keys else m.keys ++ [key] := by
  unfold insert
  by_cases h : m.contains key
  · rw [dif_pos h, if_pos (contains_iff.1 h)]
    simp only [keys, List.map_map]
    refine List.map_congr_left fun e _ => ?_
    by_cases he : e.1 = key <;> simp [he]
  · rw [dif_neg h, if_neg fun hk => h (contains_iff.2 hk)]
    simp [keys]

/-- To set a value that is there already changes nothing. -/
theorem insert_eq_self {m : OrderedMap α} {key : String} {value : α} (h : m.get? key = some value) :
    m.insert key value = m := by
  have hmap : m.entries.map (fun e => if e.1 = key then (key, value) else e) = m.entries := by
    refine (List.map_congr_left fun e he => ?_).trans (List.map_id _)
    split
    · rename_i hkey
      subst hkey
      have hvalue : m.get? e.1 = some e.2 := get?_eq_some_iff.2 he
      rw [Option.some.inj (h.symm.trans hvalue)]
      rfl
    · rfl
  apply ext_entries
  rw [insert, dif_pos (show m.contains key by rw [contains, h]; rfl)]
  exact hmap

/-! ## Many entries set at once -/

theorem get?_insertAll_of_notMem {entries : List (String × α)} {m : OrderedMap α} {key : String}
    (h : key ∉ entries.map Prod.fst) : (m.insertAll entries).get? key = m.get? key := by
  induction entries generalizing m with
  | nil => rfl
  | cons e es ih =>
    rw [List.map_cons, List.mem_cons, not_or] at h
    exact (ih h.2).trans (by rw [get?_insert, if_neg h.1])

/-- A key whose entries all have one value has that value. -/
theorem get?_insertAll_of_unique {entries : List (String × α)} {m : OrderedMap α} {key : String}
    {value : α} (hmem : key ∈ entries.map Prod.fst) (h : ∀ e ∈ entries, e.1 = key → e.2 = value) :
    (m.insertAll entries).get? key = some value := by
  induction entries generalizing m with
  | nil => simp at hmem
  | cons e es ih =>
    by_cases hes : key ∈ es.map Prod.fst
    · exact ih hes fun e he => h e (List.mem_cons_of_mem _ he)
    · -- the first entry is the only one with the key
      obtain rfl : key = e.1 := by
        rw [List.map_cons, List.mem_cons] at hmem
        exact hmem.resolve_right hes
      refine (get?_insertAll_of_notMem hes).trans ?_
      rw [get?_insert, if_pos rfl, h e List.mem_cons_self rfl]

theorem insertAll_eq_self {m : OrderedMap α} {entries : List (String × α)}
    (h : ∀ e ∈ entries, m.get? e.1 = some e.2) : m.insertAll entries = m := by
  induction entries with
  | nil => rfl
  | cons e es ih =>
    rw [List.forall_mem_cons] at h
    change (m.insert e.1 e.2).insertAll es = m
    rw [insert_eq_self h.1, ih h.2]

theorem mem_keys_insertAll {entries : List (String × α)} {m : OrderedMap α} {key : String} :
    key ∈ (m.insertAll entries).keys ↔ key ∈ m.keys ∨ key ∈ entries.map Prod.fst := by
  induction entries generalizing m with
  | nil => simp [insertAll]
  | cons e es ih =>
    refine (ih (m := m.insert e.1 e.2)).trans ?_
    rw [mem_keys_insert, List.map_cons, List.mem_cons, or_assoc, or_left_comm]

theorem get?_insertAll (m n : OrderedMap α) (key : String) :
    (m.insertAll n.entries).get? key = (n.get? key).or (m.get? key) := by
  cases hn : n.get? key with
  | none => exact get?_insertAll_of_notMem (get?_eq_none_iff.1 hn)
  | some value =>
    refine get?_insertAll_of_unique (mem_keys_of_get? hn) fun e he hk => ?_
    subst hk
    exact Option.some.inj ((get?_eq_some_iff.2 he).symm.trans hn)

private theorem keys_insertAll_of_nodup {entries : List (String × α)} {m : OrderedMap α}
    (h : (entries.map Prod.fst).Nodup) :
    (m.insertAll entries).keys = m.keys ++ (entries.map Prod.fst).filter (· ∉ m.keys) := by
  induction entries generalizing m with
  | nil => simp [insertAll]
  | cons e es ih =>
    rw [List.map_cons, List.nodup_cons] at h
    refine (ih (m := m.insert e.1 e.2) h.2).trans ?_
    -- the first key is among the later ones only if it is a key of the map already
    have hfilter : (es.map Prod.fst).filter (· ∉ (m.insert e.1 e.2).keys) =
        (es.map Prod.fst).filter (· ∉ m.keys) := by
      refine List.filter_congr fun k hk => ?_
      have hne : k ≠ e.1 := fun he => h.1 (he ▸ hk)
      simp [mem_keys_insert, hne]
    rw [hfilter, keys_insert, List.map_cons, List.filter_cons]
    by_cases hm : e.1 ∈ m.keys <;> simp [hm]

theorem keys_insertAll (m n : OrderedMap α) :
    (m.insertAll n.entries).keys = m.keys ++ n.keys.filter (· ∉ m.keys) :=
  keys_insertAll_of_nodup n.nodup_keys

/-- Entries with new keys come behind those of the map. -/
private theorem entries_insertAll_of_nodup {entries : List (String × α)} {m : OrderedMap α}
    (h : (entries.map Prod.fst).Nodup) (hnew : ∀ k ∈ entries.map Prod.fst, k ∉ m.keys) :
    (m.insertAll entries).entries = m.entries ++ entries := by
  induction entries generalizing m with
  | nil => simp [insertAll]
  | cons e es ih =>
    rw [List.map_cons, List.nodup_cons] at h
    have hhead : e.1 ∉ m.keys := hnew e.1 (by simp)
    have hinsert : (m.insert e.1 e.2).entries = m.entries ++ [e] := by
      rw [insert, dif_neg fun hc => hhead (contains_iff.1 hc)]
    have htail : ∀ k ∈ es.map Prod.fst, k ∉ (m.insert e.1 e.2).keys := by
      intro k hk hmem
      rcases mem_keys_insert.1 hmem with rfl | hmem
      · exact h.1 hk
      · exact hnew k (List.mem_cons_of_mem _ hk) hmem
    refine (ih h.2 htail).trans ?_
    rw [hinsert, List.append_assoc, List.singleton_append]

theorem entries_ofList {entries : List (String × α)} (h : (entries.map Prod.fst).Nodup) :
    (ofList entries).entries = entries :=
  entries_insertAll_of_nodup h fun _ _ => by simp [keys, empty]

/-! ## Changed keys -/

theorem mem_keys_mapKeys {m : OrderedMap α} {f : String → String} {key : String} :
    key ∈ (m.mapKeys f).keys ↔ ∃ k ∈ m.keys, f k = key := by
  rw [mapKeys, ofList, mem_keys_insertAll]
  simp [keys, empty]

/-- A key that only one key turns into has the value of that one. -/
theorem get?_mapKeys {m : OrderedMap α} {f : String → String} {key : String} (hmem : key ∈ m.keys)
    (h : ∀ k ∈ m.keys, f k = f key → k = key) : (m.mapKeys f).get? (f key) = m.get? key := by
  obtain ⟨value, hv⟩ := mem_keys_iff.1 hmem
  rw [hv, mapKeys, ofList]
  refine get?_insertAll_of_unique ?_ fun e he hk => ?_
  · rw [List.map_map, List.mem_map]
    exact ⟨(key, value), get?_eq_some_iff.1 hv, rfl⟩
  · obtain ⟨⟨k, v⟩, hkv, rfl⟩ := List.mem_map.1 he
    obtain rfl := h k (List.mem_map_of_mem hkv) hk
    exact Option.some.inj ((get?_eq_some_iff.2 hkv).symm.trans hv)

/-- A key that no other key turns into has the value of the key that turns into it. -/
theorem get?_mapKeys_of_unique {m : OrderedMap α} {f : String → String} {key newKey : String}
    (h : ∀ k ∈ m.keys, f k = newKey ↔ k = key) : (m.mapKeys f).get? newKey = m.get? key := by
  by_cases hkey : key ∈ m.keys
  · obtain rfl := (h key hkey).2 rfl
    exact get?_mapKeys hkey fun k hk => (h k hk).1
  · rw [get?_eq_none_iff.2 hkey, get?_eq_none_iff, mem_keys_mapKeys]
    rintro ⟨k, hk, hnew⟩
    exact hkey ((h k hk).1 hnew ▸ hk)

/-- Keys that are changed and changed back keep their places and their values. -/
theorem mapKeys_mapKeys {m : OrderedMap α} {f g : String → String}
    (h : ∀ k ∈ m.keys, g (f k) = k) : (m.mapKeys f).mapKeys g = m := by
  have hforth : (m.mapKeys f).entries = m.entries.map fun e => (f e.1, e.2) := by
    refine entries_ofList ?_
    have hkeys : (m.entries.map fun e => (f e.1, e.2)).map Prod.fst = m.keys.map f := by
      rw [List.map_map, keys, List.map_map]
      rfl
    rw [hkeys]
    exact List.Nodup.map_on (fun k hk l hl heq => by rw [← h k hk, heq, h l hl]) m.nodup_keys
  have hback : ((m.mapKeys f).entries.map fun e => (g e.1, e.2)) = m.entries := by
    rw [hforth, List.map_map]
    refine (List.map_congr_left fun e he => ?_).trans (List.map_id _)
    exact Prod.ext (h e.1 (List.mem_map_of_mem he)) rfl
  refine ext_entries ?_
  rw [mapKeys, hback]
  exact entries_ofList m.nodup_keys

end Stencil.OrderedMap
