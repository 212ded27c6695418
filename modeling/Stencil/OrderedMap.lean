/-!
# Maps that remember their order

A map from texts to values whose entries keep the order in which their keys came. Setting a key
that is there keeps its place, and taking a key away keeps the order of the rest.

* `OrderedMap.get?` — the view of a map: its value under each key. `get?_insert`, `get?_erase` and
  `get?_filter` say what the operations do to it;
* `OrderedMap.Agree` — two maps hold related values under the same keys, in whatever order.
-/

namespace Stencil

/-- Entries with distinct keys, in order. -/
structure OrderedMap (α : Type) where
  /-- Keys and their values. -/
  entries : List (String × α)
  nodup_keys : (entries.map Prod.fst).Nodup

namespace OrderedMap

variable {α β : Type}

/-! ## Reading -/

/-- The map without entries. -/
def empty : OrderedMap α := ⟨[], by simp⟩

instance : Inhabited (OrderedMap α) := ⟨empty⟩

/-- The value under a key. -/
def get? (m : OrderedMap α) (key : String) : Option α := m.entries.lookup key

/-- The keys in order. -/
def keys (m : OrderedMap α) : List String := m.entries.map Prod.fst

/-- The values in order. -/
def values (m : OrderedMap α) : List α := m.entries.map Prod.snd

/-- Some value is held under the key. -/
def contains (m : OrderedMap α) (key : String) : Bool := (m.get? key).isSome

/-- The number of entries. -/
def size (m : OrderedMap α) : Nat := m.entries.length

/-- There are no entries. -/
def isEmpty (m : OrderedMap α) : Bool := m.entries.isEmpty

theorem ext_entries {m n : OrderedMap α} (h : m.entries = n.entries) : m = n := by
  cases m; cases n; cases h; rfl

theorem contains_iff {m : OrderedMap α} {key : String} : m.contains key ↔ key ∈ m.keys := by
  simp only [contains, get?, List.lookup_isSome_iff, keys, List.mem_map, beq_iff_eq]
  exact ⟨fun ⟨e, he, h⟩ => ⟨e, he, h.symm⟩, fun ⟨e, he, h⟩ => ⟨e, he, h.symm⟩⟩

/-! ## Writing -/

/-- Set the value under a key; a new key goes to the end. -/
def insert (m : OrderedMap α) (key : String) (value : α) : OrderedMap α :=
  if h : m.contains key then
    { entries := m.entries.map fun e => if e.1 = key then (key, value) else e
      nodup_keys := by
        have : (m.entries.map fun e => if e.1 = key then (key, value) else e).map Prod.fst =
            m.entries.map Prod.fst := by
          rw [List.map_map]
          refine List.map_congr_left fun e _ => ?_
          by_cases he : e.1 = key <;> simp [he]
        rw [this]
        exact m.nodup_keys }
  else
    { entries := m.entries ++ [(key, value)]
      nodup_keys := by
        rw [contains_iff] at h
        rw [List.map_append, List.nodup_append]
        refine ⟨m.nodup_keys, by simp, fun a ha b hb => ?_⟩
        rw [List.map_cons, List.map_nil, List.mem_singleton] at hb
        subst hb
        exact fun e => h (e ▸ ha) }

/-- Keep the entries whose key and value satisfy `p`. -/
def filter (m : OrderedMap α) (p : String → α → Bool) : OrderedMap α :=
  ⟨m.entries.filter fun e => p e.1 e.2,
    m.nodup_keys.sublist (List.filter_sublist.map Prod.fst)⟩

/-- Take a key away. -/
def erase (m : OrderedMap α) (key : String) : OrderedMap α := m.filter fun k _ => k != key

/-- Change every value, knowing its key. -/
def map (m : OrderedMap α) (f : String → α → β) : OrderedMap β :=
  ⟨m.entries.map fun e => (e.1, f e.1 e.2), by
    rw [List.map_map]
    exact m.nodup_keys⟩

/-- Set entries one after another. -/
def insertAll (m : OrderedMap α) (entries : List (String × α)) : OrderedMap α :=
  entries.foldl (fun m e => m.insert e.1 e.2) m

/-- The map of some entries: a repeated key has the place of its first and the value of its last
entry. -/
def ofList (entries : List (String × α)) : OrderedMap α := empty.insertAll entries

/-- Change every key; keys that fall together have the place of the first and the value of the last
of them. -/
def mapKeys (m : OrderedMap α) (f : String → String) : OrderedMap α :=
  ofList (m.entries.map fun e => (f e.1, e.2))

/-! ## What the operations do to the entries -/

/-- What holds of the entries of a map and of a new one holds of all entries afterwards. -/
theorem forall_entries_insert {p : String × α → Prop} {m : OrderedMap α} {key : String} {value : α}
    (h : ∀ e ∈ m.entries, p e) (hnew : p (key, value)) :
    ∀ e ∈ (m.insert key value).entries, p e := by
  unfold insert
  split
  · intro e he
    obtain ⟨e', he', rfl⟩ := List.mem_map.1 he
    split
    · exact hnew
    · exact h e' he'
  · intro e he
    rcases List.mem_append.1 he with he | he
    · exact h e he
    · rw [List.mem_singleton.1 he]
      exact hnew

theorem forall_entries_insertAll {p : String × α → Prop} {entries : List (String × α)}
    {m : OrderedMap α} (h : ∀ e ∈ m.entries, p e) (hnew : ∀ e ∈ entries, p e) :
    ∀ e ∈ (m.insertAll entries).entries, p e := by
  induction entries generalizing m with
  | nil => exact h
  | cons e es ih =>
    rw [List.forall_mem_cons] at hnew
    exact ih (forall_entries_insert h hnew.1) hnew.2

theorem forall_entries_ofList {p : String × α → Prop} {entries : List (String × α)}
    (h : ∀ e ∈ entries, p e) : ∀ e ∈ (ofList entries).entries, p e :=
  forall_entries_insertAll (fun _ he => absurd he List.not_mem_nil) h

/-! ## What the operations do to the values -/

private theorem lookup_cons_ite (e : String × α) (es : List (String × α)) (k : String) :
    (e :: es).lookup k = if k = e.1 then some e.2 else es.lookup k := by
  by_cases h : k = e.1
  · subst h
    rw [if_pos rfl]
    exact List.lookup_cons_self
  · rw [if_neg h, List.lookup_cons, beq_false_of_ne h]

private theorem lookup_eq_none {es : List (String × α)} {k : String}
    (h : k ∉ es.map Prod.fst) : es.lookup k = none :=
  List.lookup_eq_none_iff.2 fun e he => bne_iff_ne.2 fun hk => by
    subst hk
    exact h (List.mem_map_of_mem he)

private theorem lookup_set (entries : List (String × α)) (key k : String) (value : α) :
    (entries.map fun e => if e.1 = key then (key, value) else e).lookup k =
      if k = key then (entries.lookup k).map fun _ => value else entries.lookup k := by
  induction entries with
  | nil => simp
  | cons e es ih =>
    rw [List.map_cons, lookup_cons_ite, lookup_cons_ite, ih]
    by_cases he : e.1 = key <;> by_cases hk : k = key <;> by_cases hke : k = e.1 <;> simp_all

@[simp] theorem get?_empty (key : String) : (empty : OrderedMap α).get? key = none := rfl

@[simp] theorem get?_insert (m : OrderedMap α) (key k : String) (value : α) :
    (m.insert key value).get? k = if k = key then some value else m.get? k := by
  unfold insert
  split
  · rename_i h
    rw [get?, lookup_set]
    split
    · rename_i hk
      subst hk
      obtain ⟨v, hv⟩ := Option.isSome_iff_exists.1 h
      rw [get?] at hv
      simp [hv]
    · rfl
  · rename_i h
    rw [get?, List.lookup_append, lookup_cons_ite, List.lookup_nil]
    by_cases hk : k = key
    · subst hk
      rw [lookup_eq_none fun hm => h (contains_iff.2 hm)]
      simp
    · simp [hk, get?]

private theorem lookup_filter {entries : List (String × α)} (p : String → α → Bool)
    (h : (entries.map Prod.fst).Nodup) (k : String) :
    (entries.filter fun e => p e.1 e.2).lookup k = (entries.lookup k).filter (p k) := by
  induction entries with
  | nil => simp
  | cons e es ih =>
    rw [List.map_cons, List.nodup_cons] at h
    have ih := ih h.2
    rw [List.filter_cons, lookup_cons_ite]
    by_cases hk : k = e.1
    · subst hk
      rw [lookup_eq_none h.1] at ih
      by_cases hp : p e.1 e.2 <;> simp [hp, lookup_cons_ite, Option.filter, ih]
    · by_cases hp : p e.1 e.2 <;> simp [hp, lookup_cons_ite, hk, ih]

@[simp] theorem get?_filter (m : OrderedMap α) (p : String → α → Bool) (k : String) :
    (m.filter p).get? k = (m.get? k).filter (p k) :=
  lookup_filter p m.nodup_keys k

@[simp] theorem get?_erase (m : OrderedMap α) (key k : String) :
    (m.erase key).get? k = if k = key then none else m.get? k := by
  rw [erase, get?_filter]
  by_cases h : k = key <;> cases m.get? k <;> simp [h, Option.filter]

@[simp] theorem get?_map (m : OrderedMap α) (f : String → α → β) (k : String) :
    (m.map f).get? k = (m.get? k).map (f k) := by
  obtain ⟨entries, nodup⟩ := m
  simp only [map, get?]
  clear nodup
  induction entries with
  | nil => simp
  | cons e es ih =>
    rw [List.map_cons, lookup_cons_ite, lookup_cons_ite, ih]
    by_cases hk : k = e.1
    · subst hk; simp
    · simp [hk]

/-! ## Agreement -/

/-- Two maps hold values related by `r` under the same keys. -/
def Agree (r : α → β → Prop) (m : OrderedMap α) (n : OrderedMap β) : Prop :=
  ∀ key, Option.Rel r (m.get? key) (n.get? key)

/-- The value of every entry of `m` is related to the value of `n` under its key, and the keys of
`n` are keys of `m`. -/
theorem agree_iff {r : α → β → Prop} {m : OrderedMap α} {n : OrderedMap β} :
    Agree r m n ↔
      (∀ key ∈ m.keys, Option.Rel r (m.get? key) (n.get? key)) ∧
        ∀ key ∈ n.keys, m.contains key := by
  constructor
  · refine fun h => ⟨fun key _ => h key, fun key hk => ?_⟩
    have hn := contains_iff.2 hk
    have := h key
    revert hn
    rw [contains, contains]
    generalize m.get? key = a at *
    generalize n.get? key = b at *
    cases this <;> simp
  · intro h key
    by_cases hm : m.contains key
    · exact h.1 key (contains_iff.1 hm)
    · have hn : ¬ n.contains key := fun hn => hm (h.2 key (contains_iff.1 hn))
      simp only [contains, Option.isSome_iff_ne_none, ne_eq, Decidable.not_not] at hm hn
      rw [hm, hn]
      exact .none

instance decidableRel (r : α → β → Prop) [∀ a b, Decidable (r a b)] :
    (a : Option α) → (b : Option β) → Decidable (Option.Rel r a b)
  | none, none => .isTrue .none
  | none, some _ => .isFalse nofun
  | some _, none => .isFalse nofun
  | some a, some b => if h : r a b then .isTrue (.some h) else .isFalse fun | .some h' => h h'

instance (r : α → β → Prop) [∀ a b, Decidable (r a b)] (m : OrderedMap α) (n : OrderedMap β) :
    Decidable (Agree r m n) :=
  decidable_of_iff _ agree_iff.symm

theorem Agree.refl {r : α → α → Prop} (hr : ∀ a, r a a) (m : OrderedMap α) : Agree r m m := by
  intro key
  cases m.get? key with
  | none => exact .none
  | some a => exact .some (hr a)

theorem Agree.symm {r : α → α → Prop} {m n : OrderedMap α} (h : Agree r m n)
    (hr : ∀ {a b}, r a b → r b a) : Agree r n m := by
  intro key
  have := h key
  generalize m.get? key = a at *
  generalize n.get? key = b at *
  cases this with
  | none => exact .none
  | some h => exact .some (hr h)

theorem Agree.trans {r : α → α → Prop} {l m n : OrderedMap α} (h : Agree r l m) (h' : Agree r m n)
    (hr : ∀ {a b c}, r a b → r b c → r a c) : Agree r l n := by
  intro key
  have h := h key
  have h' := h' key
  generalize l.get? key = a at *
  generalize m.get? key = b at *
  generalize n.get? key = c at *
  cases h with
  | none => exact h'
  | some h =>
    cases h' with
    | some h' => exact .some (hr h h')

/-- Maps are alike when they hold alike values under the same keys. -/
instance [Setoid α] : Setoid (OrderedMap α) where
  r := Agree fun a b => a ≈ b
  iseqv := ⟨Agree.refl Setoid.refl, fun h => h.symm fun h => Setoid.symm h,
    fun h h' => h.trans h' fun h h' => Setoid.trans h h'⟩

instance [Setoid α] [∀ a b : α, Decidable (a ≈ b)] (m n : OrderedMap α) : Decidable (m ≈ n) :=
  decidable_of_iff (Agree (fun a b => a ≈ b) m n) Iff.rfl

end OrderedMap

end Stencil
