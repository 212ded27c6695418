import Stencil.Document.Library
import Stencil.Proofs.OrderedMap

/-!
# Lenient and strict reading

A library is read leniently entry by entry. That gives what strict reading gives, wherever strict
reading gives something, and otherwise what it gives of the entries that can be read.

* `Kept` — what is kept of some entries: those that can be read, in order;
* `Section` — a kind of section with both ways to read it, and what has to hold between them;
* `Library.withoutMalformed` — a value without the entries that cannot be read;
* `Library.lenient_agrees` — lenient and strict reading of a whole library.
-/

namespace Stencil

/-! ## Entries -/

/-- What is kept of some entries: those that can be read, in order. -/
inductive Kept {α β : Type} (read : α → Option β) : List α → List β → Prop
  /-- There are no entries. -/
  | nil : Kept read [] []
  /-- The first entry can be read. -/
  | keep {x : α} {y : β} {xs : List α} {ys : List β} (h : read x = some y) (hs : Kept read xs ys) :
    Kept read (x :: xs) (y :: ys)
  /-- The first entry cannot be read. -/
  | skip {x : α} {xs : List α} {ys : List β} (h : read x = none) (hs : Kept read xs ys) :
    Kept read (x :: xs) ys

section

variable {α β : Type} {read : α → Option β} {xs : List α} {ys : List β}

theorem kept_filterMap (read : α → Option β) (xs : List α) : Kept read xs (xs.filterMap read) := by
  induction xs with
  | nil => exact .nil
  | cons x xs ih =>
    cases hx : read x with
    | none =>
      rw [List.filterMap_cons_none hx]
      exact .skip hx ih
    | some y =>
      rw [List.filterMap_cons_some hx]
      exact .keep hx ih

/-- All entries are read if each of them can be, and then all of them are kept. -/
theorem mapM_eq_some_iff :
    xs.mapM read = some ys ↔ xs.filterMap read = ys ∧ ∀ x ∈ xs, (read x).isSome := by
  induction xs generalizing ys with
  | nil => simp
  | cons x xs ih =>
    rw [List.mapM_cons]
    cases hx : read x with
    | none => simp [hx]
    | some y =>
      have htail : (∃ ys', xs.mapM read = some ys' ∧ some (y :: ys') = some ys) ↔
          y :: xs.filterMap read = ys ∧ ∀ x ∈ xs, (read x).isSome := by
        simp [ih, and_comm]
      rw [List.filterMap_cons_some hx, List.forall_mem_cons, hx]
      simpa [Option.bind_eq_some_iff] using htail

/-- The entries that can be read are all read. -/
theorem mapM_filter_isSome (read : α → Option β) (xs : List α) :
    (xs.filter fun x => (read x).isSome).mapM read = some (xs.filterMap read) := by
  refine mapM_eq_some_iff.2 ⟨?_, fun x hx => (List.mem_filter.1 hx).2⟩
  rw [List.filterMap_filter]
  congr 1
  funext x
  cases read x <;> rfl

end

/-! ## Fields -/

namespace Json

variable {fields : List (String × Json)} {name : String} {o : Option Json}

theorem lookup_eq_head?_filter (fields : List (String × Json)) (name : String) :
    fields.lookup name = (fields.filter (·.1 == name)).head?.map Prod.snd := by
  induction fields with
  | nil => rfl
  | cons m ms ih =>
    rw [List.lookup_cons, List.filter_cons, BEq.comm]
    cases m.1 == name with
    | true => rfl
    | false => exact ih

/-- A field that is read is the first member with its name, and the only one. -/
theorem field?_eq_some (h : field? fields name = some o) :
    fields.lookup name = o ∧ ∀ m ∈ fields, m.1 = name → o = some m.2 := by
  have hmem {m : String × Json} (hm : m ∈ fields) (hname : m.1 = name) :
      m ∈ fields.filter (·.1 == name) := List.mem_filter.2 ⟨hm, by simpa using hname⟩
  unfold field? at h
  rw [lookup_eq_head?_filter]
  split at h
  · rename_i hnone
    obtain rfl := Option.some.inj h
    refine ⟨by rw [hnone]; rfl, fun m hm hname => ?_⟩
    exact absurd (hnone ▸ hmem hm hname) List.not_mem_nil
  · rename_i m' hone
    obtain rfl := Option.some.inj h
    refine ⟨by rw [hone]; rfl, fun m hm hname => ?_⟩
    have hm' := hmem hm hname
    rw [hone] at hm'
    rw [List.mem_singleton.1 hm']
  · exact absurd h (by simp)

theorem field?_of_nodup (h : (fields.map Prod.fst).Nodup) (name : String) :
    field? fields name = some (fields.lookup name) := by
  have hnodup : ((fields.filter (·.1 == name)).map Prod.fst).Nodup :=
    h.sublist (List.filter_sublist.map _)
  have hname : ∀ m ∈ fields.filter (·.1 == name), m.1 = name := fun m hm => by
    simpa using (List.mem_filter.1 hm).2
  rw [lookup_eq_head?_filter, field?]
  -- two members with the name would make it come twice
  generalize fields.filter (·.1 == name) = found at hnodup hname
  match found with
  | [] => rfl
  | [m] => rfl
  | m :: m' :: ms =>
    rw [List.forall_mem_cons, List.forall_mem_cons] at hname
    simp [hname.1, hname.2.1] at hnodup

end Json

/-! ## Sections -/

/-- A kind of section: what stands for a missing one, when one has the right type, how it is read in
either way, and what is left without the entries that cannot be read. -/
structure Section (σ : Type) where
  missing : σ
  WellTyped : Json → Prop
  strict : Json → Option σ
  lenient : Json → σ
  prune : Json → Json
  lenient_of_strict {v : Json} {s : σ} : strict v = some s → lenient v = s ∧ prune v = v
  lenient_prune (v : Json) : lenient (prune v) = lenient v
  strict_prune {v : Json} : WellTyped v → strict (prune v) = some (lenient v)

namespace Section

variable {α σ : Type}

/-- An array of items. -/
def items (read : Json → Option α) : Section (List α) where
  missing := []
  WellTyped v := ∃ vs, v = .arr vs
  strict := Json.listOf? read
  lenient
    | .arr vs => vs.filterMap read
    | _ => []
  prune
    | .arr vs => .arr (vs.filter fun v => (read v).isSome)
    | v => v
  lenient_of_strict {v xs} h := by
    cases v with
    | arr vs =>
      obtain ⟨hkept, hall⟩ := mapM_eq_some_iff.1 h
      exact ⟨hkept, congrArg Json.arr (List.filter_eq_self.2 hall)⟩
    | _ => simp [Json.listOf?] at h
  lenient_prune v := by
    cases v with
    | arr vs => exact (mapM_eq_some_iff.1 (mapM_filter_isSome read vs)).1
    | _ => rfl
  strict_prune := by
    rintro - ⟨vs, rfl⟩
    exact mapM_filter_isSome read vs

/-- A member with a value that can be read. -/
def pair? (read : Json → Option α) (m : String × Json) : Option (String × α) :=
  (read m.2).map (m.1, ·)

/-- An object with a value for each key. -/
def entries (read : Json → Option α) : Section (OrderedMap α) where
  missing := .empty
  WellTyped v := ∃ ms, v = .obj ms
  strict := Json.mapOf? read
  lenient
    | .obj ms => .ofList (ms.filterMap (pair? read))
    | _ => .empty
  prune
    | .obj ms => .obj (ms.filter fun m => (pair? read m).isSome)
    | v => v
  lenient_of_strict {v m} h := by
    cases v with
    | obj ms =>
      obtain ⟨es, hes, rfl⟩ := Option.map_eq_some_iff.1 h
      obtain ⟨hkept, hall⟩ := mapM_eq_some_iff.1 hes
      exact ⟨congrArg _ hkept, congrArg Json.obj (List.filter_eq_self.2 hall)⟩
    | _ => simp [Json.mapOf?] at h
  lenient_prune v := by
    cases v with
    | obj ms => exact congrArg _ (mapM_eq_some_iff.1 (mapM_filter_isSome (pair? read) ms)).1
    | _ => rfl
  strict_prune := by
    rintro - ⟨ms, rfl⟩
    exact congrArg (Option.map _) (mapM_filter_isSome (pair? read) ms)

/-- The section of a value. -/
def get (S : Section σ) (v : Json) (name : String) : σ := (v.member? name).elim S.missing S.lenient

variable {S : Section σ} {s : σ} {members : List (String × Json)} {name : String}

theorem get_of_strict (h : Json.fieldOr? members name S.missing S.strict = some s) :
    S.get (.obj members) name = s ∧ ∀ m ∈ members, m.1 = name → S.prune m.2 = m.2 := by
  obtain ⟨o, hfield, hread⟩ := Option.bind_eq_some_iff.1 h
  obtain ⟨hmember, honly⟩ := Json.field?_eq_some hfield
  have hget : S.get (.obj members) name = o.elim S.missing S.lenient := by
    rw [get, ← hmember]
    rfl
  rw [hget]
  cases o with
  | none => exact ⟨Option.some.inj hread, fun m hm hname => absurd (honly m hm hname) (by simp)⟩
  | some v =>
    obtain ⟨hlenient, hprune⟩ := S.lenient_of_strict hread
    refine ⟨hlenient, fun m hm hname => ?_⟩
    rwa [← Option.some.inj (honly m hm hname)]

/-- A section of the right type is read strictly once it has been pruned. -/
theorem fieldOr?_of_pruned {pruned : List (String × Json)} (hnodup : (pruned.map Prod.fst).Nodup)
    (hpruned : pruned.lookup name = (members.lookup name).map S.prune)
    (hwell : ∀ v ∈ members.lookup name, S.WellTyped v) :
    Json.fieldOr? pruned name S.missing S.strict = some (S.get (.obj members) name) := by
  rw [Json.fieldOr?, Json.field?_of_nodup hnodup, hpruned, get, Json.member?]
  cases hv : members.lookup name with
  | none => rfl
  | some v => exact S.strict_prune (hwell v hv)

end Section

namespace Library

/-! ## Malformed entries -/

/-- The section with a name, without the entries that cannot be read. -/
def pruneSection (name : String) (v : Json) : Json :=
  if name = "templates" then (Section.items Template.ofJson?).prune v
  else if name = "banks" then (Section.entries Bank.ofJson?).prune v
  else if name = "defaults" then (Section.entries Localized.ofJson?).prune v
  else if name = "categories" then (Section.entries Category.ofJson?).prune v
  else v

/-- The members of an object, its sections without the entries that cannot be read. -/
def pruneMembers (members : List (String × Json)) : List (String × Json) :=
  members.map fun m => (m.1, pruneSection m.1 m.2)

/-- The value without the entries of its sections that cannot be read. -/
def withoutMalformed : Json → Json
  | .obj members => .obj (pruneMembers members)
  | v => v

/-- Every section that is there has the right type. -/
structure SectionsTyped (members : List (String × Json)) : Prop where
  templates (v : Json) : members.lookup "templates" = some v → ∃ items, v = .arr items
  banks (v : Json) : members.lookup "banks" = some v → ∃ ms, v = .obj ms
  defaults (v : Json) : members.lookup "defaults" = some v → ∃ ms, v = .obj ms
  categories (v : Json) : members.lookup "categories" = some v → ∃ ms, v = .obj ms

variable {α σ : Type} {S : Section σ} {members : List (String × Json)} {name : String}
  {l : Library}

theorem pruneSection_templates (v : Json) :
    pruneSection "templates" v = (Section.items Template.ofJson?).prune v := by
  simp [pruneSection]

theorem pruneSection_banks (v : Json) :
    pruneSection "banks" v = (Section.entries Bank.ofJson?).prune v := by
  simp [pruneSection]

theorem pruneSection_defaults (v : Json) :
    pruneSection "defaults" v = (Section.entries Localized.ofJson?).prune v := by
  simp [pruneSection]

theorem pruneSection_categories (v : Json) :
    pruneSection "categories" v = (Section.entries Category.ofJson?).prune v := by
  simp [pruneSection]

theorem lookup_pruneMembers (hS : ∀ v, pruneSection name v = S.prune v)
    (members : List (String × Json)) :
    (pruneMembers members).lookup name = (members.lookup name).map S.prune := by
  induction members with
  | nil => rfl
  | cons m ms ih =>
    rw [pruneMembers, List.map_cons, List.lookup_cons, List.lookup_cons]
    cases hname : name == m.1 with
    | true =>
      rw [← beq_iff_eq.1 hname]
      exact congrArg some (hS m.2)
    | false => exact ih

theorem get_withoutMalformed (hS : ∀ v, pruneSection name v = S.prune v) (v : Json) :
    S.get (withoutMalformed v) name = S.get v name := by
  cases v with
  | obj members =>
    rw [withoutMalformed, Section.get, Section.get, Json.member?, Json.member?,
      lookup_pruneMembers hS]
    cases members.lookup name with
    | none => rfl
    | some v => exact S.lenient_prune v
  | _ => rfl

/-! ## Both ways to read a library -/

theorem lenientList_eq (v : Json) (name : String) (read : Json → Option α) :
    lenientList v name read = (Section.items read).get v name := by
  rw [lenientList, Section.get]
  cases v.member? name with
  | none => rfl
  | some w => cases w <;> rfl

theorem lenientMap_eq (v : Json) (name : String) (read : Json → Option α) :
    lenientMap v name read = (Section.entries read).get v name := by
  rw [lenientMap, Section.get]
  cases v.member? name with
  | none => rfl
  | some w => cases w <;> rfl

theorem ofJsonLenient_eq (v : Json) :
    ofJsonLenient v =
      { templates := (Section.items Template.ofJson?).get v "templates"
        banks := (Section.entries Bank.ofJson?).get v "banks"
        defaults := (Section.entries Localized.ofJson?).get v "defaults"
        categories := (Section.entries Category.ofJson?).get v "categories" } := by
  simp only [ofJsonLenient, lenientList_eq, lenientMap_eq]

theorem ofJson?_obj_eq_some_iff :
    ofJson? (.obj members) = some l ↔
      Json.fieldOr? members "templates" [] (Json.listOf? Template.ofJson?) = some l.templates ∧
        Json.fieldOr? members "banks" .empty (Json.mapOf? Bank.ofJson?) = some l.banks ∧
        Json.fieldOr? members "defaults" .empty (Json.mapOf? Localized.ofJson?) =
          some l.defaults ∧
        Json.fieldOr? members "categories" .empty (Json.mapOf? Category.ofJson?) =
          some l.categories := by
  obtain ⟨templates, banks, defaults, categories⟩ := l
  simp [ofJson?, Json.fields?, Option.bind_eq_some_iff]

/-- Where a library is read strictly, no entry is malformed, and lenient reading gives the same. -/
theorem ofJsonLenient_of_strict (h : ofJson? (.obj members) = some l) :
    ofJsonLenient (.obj members) = l ∧ withoutMalformed (.obj members) = .obj members := by
  obtain ⟨htemplates, hbanks, hdefaults, hcategories⟩ := ofJson?_obj_eq_some_iff.1 h
  obtain ⟨hts, hpruneTs⟩ := Section.get_of_strict (S := .items Template.ofJson?) htemplates
  obtain ⟨hbs, hpruneBs⟩ := Section.get_of_strict (S := .entries Bank.ofJson?) hbanks
  obtain ⟨hds, hpruneDs⟩ := Section.get_of_strict (S := .entries Localized.ofJson?) hdefaults
  obtain ⟨hcs, hpruneCs⟩ := Section.get_of_strict (S := .entries Category.ofJson?) hcategories
  refine ⟨by rw [ofJsonLenient_eq, hts, hbs, hds, hcs], ?_⟩
  have hprune : ∀ m ∈ members, (m.1, pruneSection m.1 m.2) = m := fun m hm => by
    refine Prod.ext rfl ?_
    simp only [pruneSection]
    split_ifs with h₁ h₂ h₃ h₄
    · exact hpruneTs m hm h₁
    · exact hpruneBs m hm h₂
    · exact hpruneDs m hm h₃
    · exact hpruneCs m hm h₄
    · rfl
  exact congrArg Json.obj ((List.map_congr_left hprune).trans members.map_id)

theorem ofJsonLenient_withoutMalformed (v : Json) :
    ofJsonLenient (withoutMalformed v) = ofJsonLenient v := by
  simp only [ofJsonLenient_eq, get_withoutMalformed pruneSection_templates,
    get_withoutMalformed pruneSection_banks, get_withoutMalformed pruneSection_defaults,
    get_withoutMalformed pruneSection_categories]

/-- Without malformed entries, a library is read strictly. -/
theorem ofJson?_withoutMalformed (hnodup : (members.map Prod.fst).Nodup)
    (htyped : SectionsTyped members) :
    ofJson? (withoutMalformed (.obj members)) = some (ofJsonLenient (.obj members)) := by
  have hpruned : ((pruneMembers members).map Prod.fst).Nodup := by
    rwa [pruneMembers, List.map_map]
  rw [ofJsonLenient_eq]
  refine ofJson?_obj_eq_some_iff.2 ⟨?_, ?_, ?_, ?_⟩
  · exact Section.fieldOr?_of_pruned (S := .items Template.ofJson?) hpruned
      (lookup_pruneMembers pruneSection_templates members) htyped.templates
  · exact Section.fieldOr?_of_pruned (S := .entries Bank.ofJson?) hpruned
      (lookup_pruneMembers pruneSection_banks members) htyped.banks
  · exact Section.fieldOr?_of_pruned (S := .entries Localized.ofJson?) hpruned
      (lookup_pruneMembers pruneSection_defaults members) htyped.defaults
  · exact Section.fieldOr?_of_pruned (S := .entries Category.ofJson?) hpruned
      (lookup_pruneMembers pruneSection_categories members) htyped.categories

/-- A list has what is kept of a section, and nothing if the section is no array. -/
structure ItemsKept (v : Json) (name : String) (read : Json → Option α) (kept : List α) :
    Prop where
  array (items : List Json) : v.member? name = some (.arr items) → Kept read items kept
  other : (∀ items, v.member? name ≠ some (.arr items)) → kept = []

/-- A map has what is kept of a section, and nothing if the section is no object. Where a section
names its entries only once each, they keep their order. -/
structure EntriesKept (v : Json) (name : String) (read : Json → Option α) (kept : OrderedMap α) :
    Prop where
  object (members : List (String × Json)) : v.member? name = some (.obj members) →
    ∃ es, Kept (Section.pair? read) members es ∧ kept = .ofList es ∧
      ((members.map Prod.fst).Nodup → kept.entries = es)
  other : (∀ members, v.member? name ≠ some (.obj members)) → kept = .empty

theorem itemsKept_lenientList (v : Json) (name : String) (read : Json → Option α) :
    ItemsKept v name read (lenientList v name read) := by
  constructor
  · intro items h
    rw [lenientList, h]
    exact kept_filterMap read items
  · intro h
    rw [lenientList]
    split
    · rename_i items hitems
      exact absurd hitems (h items)
    · rfl

theorem sublist_keys_of_kept {read : Json → Option α} {es : List (String × α)}
    (h : Kept (Section.pair? read) members es) :
    (es.map Prod.fst).Sublist (members.map Prod.fst) := by
  induction h with
  | nil => exact .slnil
  | keep hread _ ih =>
    obtain ⟨a, -, rfl⟩ := Option.map_eq_some_iff.1 hread
    exact ih.cons_cons _
  | skip _ _ ih => exact ih.cons _

theorem entriesKept_lenientMap (v : Json) (name : String) (read : Json → Option α) :
    EntriesKept v name read (lenientMap v name read) := by
  constructor
  · intro members h
    have hkept := kept_filterMap (Section.pair? read) members
    have hlenient : lenientMap v name read =
        .ofList (members.filterMap (Section.pair? read)) := by
      rw [lenientMap, h]
      rfl
    refine ⟨_, hkept, hlenient, fun hnodup => ?_⟩
    rw [hlenient, OrderedMap.entries_ofList (hnodup.sublist (sublist_keys_of_kept hkept))]
  · intro h
    rw [lenientMap]
    split
    · rename_i members hmembers
      exact absurd hmembers (h members)
    · rfl

/-- **Lenient reading keeps what can be read, and no more.** It agrees with strict reading of an
object wherever that succeeds; in each section it keeps the entries that can be read on their own,
in order; and it gives the same without the malformed entries. What strict reading then gives, if
the sections have the right types, is the same too. -/
theorem lenient_agrees (v : Json) :
    (∀ members l, v = .obj members → ofJson? v = some l → ofJsonLenient v = l) ∧
      ItemsKept v "templates" Template.ofJson? (ofJsonLenient v).templates ∧
      EntriesKept v "banks" Bank.ofJson? (ofJsonLenient v).banks ∧
      EntriesKept v "defaults" Localized.ofJson? (ofJsonLenient v).defaults ∧
      EntriesKept v "categories" Category.ofJson? (ofJsonLenient v).categories ∧
      ofJsonLenient (withoutMalformed v) = ofJsonLenient v ∧
      ∀ members, v = .obj members → (members.map Prod.fst).Nodup → SectionsTyped members →
        ofJson? (withoutMalformed v) = some (ofJsonLenient v) := by
  refine ⟨?_, itemsKept_lenientList v _ _, entriesKept_lenientMap v _ _,
    entriesKept_lenientMap v _ _, entriesKept_lenientMap v _ _,
    ofJsonLenient_withoutMalformed v, ?_⟩
  · rintro members l rfl h
    exact (ofJsonLenient_of_strict h).1
  · rintro members rfl hnodup htyped
    exact ofJson?_withoutMalformed hnodup htyped

/-- Each section has an entry that can be read and one that cannot. -/
theorem lenient_agrees_of_malformed :
    let members : List (String × Json) :=
      [("templates", .arr [.obj [("name", .str "no id")], .obj [("id", .str "t")]]),
        ("banks", .obj [("color", .obj [("options", .arr [.str "red"])]), ("size", .str "big")]),
        ("defaults", .obj [("color", .str "red"), ("size", .int 1)]),
        ("categories", .obj [("x", .null), ("y", .obj [("label", .str "Y")])])]
    let v : Json := .obj members
    (members.map Prod.fst).Nodup ∧ SectionsTyped members ∧ (ofJson? v).isNone ∧
      (ofJsonLenient v).templates.map (·.id) = ["t"] ∧ (ofJsonLenient v).banks.keys = ["color"] ∧
      (ofJsonLenient v).defaults.keys = ["color"] ∧ (ofJsonLenient v).categories.keys = ["y"] ∧
      ofJson? (withoutMalformed v) = some (ofJsonLenient v) ∧
      ofJsonLenient (withoutMalformed v) = ofJsonLenient v := by
  intro members v
  have hnodup : (members.map Prod.fst).Nodup := by decide +kernel
  have htyped : SectionsTyped members :=
    { templates := fun w h => ⟨_, by simpa [members, List.lookup_cons] using h.symm⟩
      banks := fun w h => ⟨_, by simpa [members, List.lookup_cons] using h.symm⟩
      defaults := fun w h => ⟨_, by simpa [members, List.lookup_cons] using h.symm⟩
      categories := fun w h => ⟨_, by simpa [members, List.lookup_cons] using h.symm⟩ }
  obtain ⟨-, -, -, -, -, -, hstrict⟩ := lenient_agrees v
  have hpruned : ofJson? (withoutMalformed v) = some (ofJsonLenient v) :=
    hstrict members rfl hnodup htyped
  obtain ⟨hagrees, -⟩ := lenient_agrees (withoutMalformed v)
  exact ⟨hnodup, htyped, by decide +kernel, by decide +kernel, by decide +kernel,
    by decide +kernel, by decide +kernel, hpruned, hagrees (pruneMembers members) _ rfl hpruned⟩

end Library

end Stencil
