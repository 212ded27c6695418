import Stencil.Proofs.Linkage

/-!
# The value of each group

When the groups of a text are synchronised, each gets the value of its first member that has one. A
key belongs to a member of one group only, so that no group reads or overwrites what another one has
written, and their order does not matter.

* `Selections.FirstValue` — the value of the member with the lowest number that has one;
  `findSome?_eq_some_iff` says that the search for a value finds it;
* `Selections.Adopted` — what a token that joins a group makes of the selections:
  `adopted_syncGroup`;
* `Selections.syncGroups` — groups synchronised one after another: `get?_syncGroups_of_mem` and
  `get?_syncGroups_of_notMem` say what is under each key afterwards;
* `Selections.inStep_syncAll` — the groups of a text are in step once each has been synchronised;
* `Selections.one_value_for_each_group` — what that makes of the selections, as a whole.
-/

namespace Stencil

open Placeholder

/-! ## The first value -/

/-- The members of a group have increasing numbers. -/
theorem Placeholder.Parsed.pairwise_members (text base group : String) :
    ((ofText text).members base group).Pairwise fun t u => t.occurrence < u.occurrence := by
  have hpairwise := (pairwise_occurrence_tokensOf 0 [] (scan text.toList)).filter
    fun t => t.baseKey == base && t.group? == some group
  apply hpairwise.imp_of_mem
  intro t u ht hu hlt
  apply hlt
  rw [(mem_members.1 (show t ∈ (ofText text).members base group from ht)).2.1,
    (mem_members.1 (show u ∈ (ofText text).members base group from hu)).2.1]

namespace Selections

variable {selections : Selections} {text : String} {key : String}

/-- The value of the member with the lowest number among those that have one. -/
def FirstValue (selections : Selections) (members : List Token) (value : Localized) : Prop :=
  ∃ m ∈ members, selections.get? m.key = some value ∧
    ∀ m' ∈ members, m'.occurrence < m.occurrence → selections.get? m'.key = none

/-- Members that come one behind another are searched from the lowest number on. -/
theorem findSome?_eq_some_iff {members : List Token} {value : Localized}
    (h : members.Pairwise fun t u => t.occurrence < u.occurrence) :
    (members.map Token.key).findSome? selections.get? = some value ↔
      selections.FirstValue members value := by
  induction members with
  | nil => simp [FirstValue]
  | cons m ms ih =>
    obtain ⟨hm, hms⟩ := List.pairwise_cons.1 h
    rw [List.map_cons, List.findSome?_cons]
    cases hget : selections.get? m.key with
    | none =>
      refine (ih hms).trans ⟨?_, ?_⟩
      · rintro ⟨x, hx, hvalue, hlow⟩
        exact ⟨x, List.mem_cons_of_mem m hx, hvalue, List.forall_mem_cons.2 ⟨fun _ => hget, hlow⟩⟩
      · rintro ⟨x, hx, hvalue, hlow⟩
        rcases List.mem_cons.1 hx with rfl | hx
        · simp [hget] at hvalue
        · exact ⟨x, hx, hvalue, (List.forall_mem_cons.1 hlow).2⟩
    | some w =>
      constructor
      · rintro hw
        refine ⟨m, List.mem_cons_self, hget.trans hw, fun x hx hlt => ?_⟩
        rcases List.mem_cons.1 hx with rfl | hx
        · omega
        · have := hm x hx
          omega
      · rintro ⟨x, hx, hvalue, hlow⟩
        rcases List.mem_cons.1 hx with rfl | hx
        · exact hget.symm.trans hvalue
        · -- the head has a value and a lower number
          simp [hlow m List.mem_cons_self (hm x hx)] at hget

/-! ## One group -/

theorem groupValue?_none (selections : Selections) (members : List String) :
    selections.groupValue? members none = members.findSome? selections.get? := by
  simp [groupValue?]

theorem groupValue?_congr {selections' : Selections} {members : List String}
    (h : ∀ key ∈ members, selections.get? key = selections'.get? key) :
    selections.groupValue? members none = selections'.groupValue? members none := by
  rw [groupValue?_none, groupValue?_none]
  induction members with
  | nil => rfl
  | cons key keys ih =>
    rw [List.forall_mem_cons] at h
    rw [List.findSome?_cons, List.findSome?_cons, h.1, ih h.2]

/-- Keys that all have one value have it as the value of their group. -/
theorem groupValue?_of_forall {members : List String} {value : Option Localized}
    (h : ∀ key ∈ members, selections.get? key = value) (hempty : members = [] → value = none) :
    selections.groupValue? members none = value := by
  rw [groupValue?_none]
  cases value with
  | none => exact List.findSome?_eq_none_iff.2 h
  | some v =>
    cases members with
    | nil => exact (hempty rfl).symm
    | cons key keys => rw [List.findSome?_cons, h key List.mem_cons_self]

section SyncGroup

variable {p : Parsed} {base group : String}

theorem setAll_eq_self {keys : List String} {value : Localized}
    (h : ∀ key ∈ keys, selections.get? key = some value) :
    selections.setAll keys value = selections := by
  refine OrderedMap.insertAll_eq_self fun e he => ?_
  obtain ⟨key, hkey, rfl⟩ := List.mem_map.1 he
  exact h key hkey

/-- A group whose members have its value is left as it is. -/
theorem syncGroup_eq_self (h : ∀ key ∈ p.memberKeys (base, group),
      selections.get? key = selections.groupValue? (p.memberKeys (base, group)) none) :
    (selections.syncGroup p base group none).2 = selections := by
  rw [syncGroup_eq]
  split
  · rename_i hvalue
    exact setAll_eq_self fun key hkey => (h key hkey).trans hvalue
  · rfl

/-- **A group that is synchronised changes the value of none**: the others have other members, and
its own members get the value that it has. -/
theorem groupValue?_syncGroup (selections : Selections) (text : String) (g g' : String × String) :
    (selections.syncGroup (.ofText text) g.1 g.2 none).2.groupValue?
        ((Parsed.ofText text).memberKeys g') none =
      selections.groupValue? ((Parsed.ofText text).memberKeys g') none := by
  by_cases hg : g = g'
  · subst hg
    refine groupValue?_of_forall (fun key hkey => ?_) (fun hempty => ?_)
    · rw [get?_syncGroup]
      exact if_pos hkey
    · rw [hempty]
      rfl
  · refine groupValue?_congr fun key hkey => ?_
    rw [get?_syncGroup]
    exact if_neg fun hmem => hg (Parsed.eq_of_mem_memberKeys hmem hkey)

end SyncGroup

/-! ## A member that joins -/

/-- What becomes of selections when the member with the key `joiner` has joined a group: all its
members have the value of the first other one that has a value, or else that of the joiner, and
nothing else changes. -/
structure Adopted (before after : Selections) (members : List Token) (joiner : String) : Prop where
  of_other : (∃ m ∈ members, m.key ≠ joiner ∧ before.get? m.key ≠ none) →
    ∃ value, before.FirstValue (members.filter (·.key ≠ joiner)) value ∧
      ∀ m ∈ members, after.get? m.key = some value
  of_joiner : (∀ m ∈ members, m.key ≠ joiner → before.get? m.key = none) →
    ∀ value, before.get? joiner = some value → ∀ m ∈ members, after.get? m.key = some value
  of_none : (∀ m ∈ members, before.get? m.key = none) → after = before
  elsewhere : ∀ key, (∀ m ∈ members, m.key ≠ key) → after.get? key = before.get? key

theorem groupValue?_some (selections : Selections) (members : List Token) (joiner : String) :
    selections.groupValue? (members.map Token.key) (some joiner) =
      (((members.filter (·.key ≠ joiner)).map Token.key).findSome? selections.get?).or
        (selections.get? joiner) := by
  have hothers : (members.map Token.key).filter (some · ≠ some joiner) =
      (members.filter (·.key ≠ joiner)).map Token.key := by
    rw [List.filter_map]
    simp [Function.comp_def]
  rw [groupValue?, hothers, List.findSome?_append]
  simp

theorem findSome?_others_eq_none_iff {members : List Token} {joiner : String} :
    ((members.filter (·.key ≠ joiner)).map Token.key).findSome? selections.get? = none ↔
      ∀ m ∈ members, m.key ≠ joiner → selections.get? m.key = none := by
  rw [List.findSome?_eq_none_iff, List.forall_mem_map, List.forall_mem_filter]
  simp only [decide_eq_true_eq]

/-- **A member that joins a group takes over its value, or brings its own.** -/
theorem adopted_syncGroup (selections : Selections) {base group : String} {members : List Token}
    (hmembers : (Parsed.ofText text).members base group = members) {t : Token} (ht : t ∈ members) :
    Adopted selections (selections.syncGroup (.ofText text) base group (some t.key)).2 members
      t.key := by
  have hmember {m : Token} (hm : m ∈ members) :
      (selections.syncGroup (.ofText text) base group (some t.key)).2.get? m.key =
        (((members.filter (·.key ≠ t.key)).map Token.key).findSome? selections.get?).or
          (selections.get? t.key) := by
    rw [get?_syncGroup, hmembers, if_pos (List.mem_map_of_mem hm), groupValue?_some]
  refine ⟨?_, fun hothers value hvalue m hm => ?_, fun hnone => ?_, fun key hkey => ?_⟩
  · rintro ⟨m, hm, hne, hsome⟩
    cases hfound : ((members.filter (·.key ≠ t.key)).map Token.key).findSome? selections.get? with
    | none => exact absurd (findSome?_others_eq_none_iff.1 hfound m hm hne) hsome
    | some value =>
      have hpairwise := Parsed.pairwise_members text base group
      rw [hmembers] at hpairwise
      refine ⟨value, (findSome?_eq_some_iff (hpairwise.filter _)).1 hfound, fun u hu => ?_⟩
      rw [hmember hu, hfound, Option.some_or]
  · rw [hmember hm, findSome?_others_eq_none_iff.2 hothers, Option.none_or, hvalue]
  · rw [syncGroup_eq, hmembers, groupValue?_some, hnone t ht, Option.or_none,
      findSome?_others_eq_none_iff.2 fun m hm _ => hnone m hm]
  · rw [get?_syncGroup, hmembers, if_neg]
    intro hmem
    obtain ⟨u, hu, rfl⟩ := List.mem_map.1 hmem
    exact hkey u hu rfl

/-! ## All groups -/

/-- Synchronise groups one after another. -/
def syncGroups (selections : Selections) (p : Parsed) (groups : List (String × String)) :
    Selections :=
  groups.foldl (fun s g => (s.syncGroup p g.1 g.2 none).2) selections

theorem syncAll_eq (selections : Selections) (p : Parsed) :
    selections.syncAll p = selections.syncGroups p p.groups := rfl

section SyncGroups

variable {groups : List (String × String)} {g : String × String}

theorem groupValue?_syncGroups (selections : Selections) (text : String)
    (groups : List (String × String)) (g : String × String) :
    (selections.syncGroups (.ofText text) groups).groupValue? ((Parsed.ofText text).memberKeys g)
        none =
      selections.groupValue? ((Parsed.ofText text).memberKeys g) none := by
  induction groups generalizing selections with
  | nil => rfl
  | cons g' gs ih => exact (ih _).trans (groupValue?_syncGroup selections text g' g)

/-- The key of no member keeps what it has. -/
theorem get?_syncGroups_of_notMem {p : Parsed} (h : ∀ g ∈ groups, key ∉ p.memberKeys g) :
    (selections.syncGroups p groups).get? key = selections.get? key := by
  induction groups generalizing selections with
  | nil => rfl
  | cons g gs ih =>
    rw [List.forall_mem_cons] at h
    refine (ih h.2).trans ?_
    rw [get?_syncGroup]
    exact if_neg h.1

/-- **Every member of a group ends up with the value that the group had at first**, whichever groups
are synchronised before and behind it. -/
theorem get?_syncGroups_of_mem (hg : g ∈ groups) (hkey : key ∈ (Parsed.ofText text).memberKeys g) :
    (selections.syncGroups (.ofText text) groups).get? key =
      selections.groupValue? ((Parsed.ofText text).memberKeys g) none := by
  induction groups generalizing selections with
  | nil => simp at hg
  | cons g' gs ih =>
    by_cases htail : g ∈ gs
    · exact (ih htail).trans (groupValue?_syncGroup selections text g' g)
    · -- its turn comes now, and the groups behind have other members
      obtain rfl : g = g' := (List.mem_cons.1 hg).resolve_right htail
      have hrest : ∀ h ∈ gs, key ∉ (Parsed.ofText text).memberKeys h := fun h hh hmem =>
        htail (Parsed.eq_of_mem_memberKeys hkey hmem ▸ hh)
      change ((selections.syncGroup _ g.1 g.2 none).2.syncGroups _ gs).get? key = _
      rw [get?_syncGroups_of_notMem hrest, get?_syncGroup]
      exact if_pos hkey

/-- Groups whose members have their values are left as they are. -/
theorem syncGroups_eq_self {p : Parsed} (h : ∀ g ∈ groups, ∀ key ∈ p.memberKeys g,
      selections.get? key = selections.groupValue? (p.memberKeys g) none) :
    selections.syncGroups p groups = selections := by
  induction groups with
  | nil => rfl
  | cons g gs ih =>
    rw [List.forall_mem_cons] at h
    change (selections.syncGroup p g.1 g.2 none).2.syncGroups p gs = selections
    rw [syncGroup_eq_self h.1, ih h.2]

/-- The order of groups makes no difference. -/
theorem get?_syncGroups_of_perm {order : List (String × String)} (h : order.Perm groups)
    (key : String) : (selections.syncGroups (.ofText text) order).get? key =
      (selections.syncGroups (.ofText text) groups).get? key := by
  by_cases hkey : ∃ g ∈ groups, key ∈ (Parsed.ofText text).memberKeys g
  · obtain ⟨g, hg, hmem⟩ := hkey
    rw [get?_syncGroups_of_mem hg hmem, get?_syncGroups_of_mem (h.mem_iff.2 hg) hmem]
  · rw [get?_syncGroups_of_notMem fun g hg hmem => hkey ⟨g, hg, hmem⟩,
      get?_syncGroups_of_notMem fun g hg hmem => hkey ⟨g, h.mem_iff.1 hg, hmem⟩]

end SyncGroups

section SyncAll

variable {base group : String} {t : Token}

theorem get?_syncAll (ht : t ∈ (Parsed.ofText text).members base group) :
    (selections.syncAll (.ofText text)).get? t.key =
      selections.groupValue? ((Parsed.ofText text).memberKeys (base, group)) none := by
  obtain ⟨htmem, rfl, hgroup⟩ := Parsed.mem_members.1 ht
  rw [syncAll_eq]
  exact get?_syncGroups_of_mem (Parsed.mem_groups htmem hgroup) (List.mem_map_of_mem ht)

/-- The key of no token in a group keeps what it has. -/
theorem get?_syncAll_of_notMem
    (h : ∀ t ∈ (Parsed.ofText text).tokens.toList, t.group? ≠ none → t.key ≠ key) :
    (selections.syncAll (.ofText text)).get? key = selections.get? key := by
  rw [syncAll_eq]
  apply get?_syncGroups_of_notMem
  intro g _ hmem
  obtain ⟨t, ht, htkey⟩ := List.mem_map.1 hmem
  obtain ⟨htmem, -, hgroup⟩ := Parsed.mem_members.1 ht
  exact h t htmem (by simp [hgroup]) htkey

/-- The value of a group with a selection is its first one. -/
theorem exists_firstValue (ht : t ∈ (Parsed.ofText text).members base group)
    (hsome : selections.get? t.key ≠ none) :
    ∃ value, selections.FirstValue ((Parsed.ofText text).members base group) value ∧
      selections.groupValue? ((Parsed.ofText text).memberKeys (base, group)) none =
        some value := by
  cases hvalue : selections.groupValue? ((Parsed.ofText text).memberKeys (base, group)) none with
  | none => exact absurd (get?_of_groupValue? none hvalue (List.mem_map_of_mem ht)) hsome
  | some value =>
    refine ⟨value, ?_, rfl⟩
    rw [groupValue?_none] at hvalue
    exact (findSome?_eq_some_iff (Parsed.pairwise_members text base group)).1 hvalue

/-- To synchronise all groups again changes nothing. -/
theorem syncAll_syncAll (selections : Selections) (text : String) :
    (selections.syncAll (.ofText text)).syncAll (.ofText text) =
      selections.syncAll (.ofText text) := by
  rw [syncAll_eq, syncAll_eq]
  apply syncGroups_eq_self
  intro g hg key hkey
  rw [groupValue?_syncGroups]
  exact get?_syncGroups_of_mem hg hkey

end SyncAll

/-- **The groups of a text are in step once each has been synchronised.** -/
theorem inStep_syncAll (selections : Selections) (text : String) :
    (selections.syncAll (.ofText text)).InStep (.ofText text) := by
  refine inStep_iff_uniform.2 fun base group t ht u hu => Alike.of_eq ?_
  rw [get?_syncAll ht, get?_syncAll hu]

/-- **Synchronising all groups gives each one value and changes nothing else.** The members of a
group are the tokens with its base key and its number. They get the value of the one with the lowest
occurrence that has one, and have none if it is so for all of them; every other key keeps its value.
To do it again changes nothing at all, and the groups can be taken in any order. -/
theorem one_value_for_each_group (selections : Selections) (text : String) :
    let p := Parsed.ofText text
    let after := selections.syncAll p
    (∀ base group,
      (∀ t, t ∈ p.members base group ↔
        t ∈ p.tokens.toList ∧ t.baseKey = base ∧ t.group? = some group) ∧
      ((∃ t ∈ p.members base group, selections.get? t.key ≠ none) →
        ∃ value, selections.FirstValue (p.members base group) value ∧
          ∀ t ∈ p.members base group, after.get? t.key = some value) ∧
      ((∀ t ∈ p.members base group, selections.get? t.key = none) →
        ∀ t ∈ p.members base group, after.get? t.key = none)) ∧
    (∀ key, (∀ t ∈ p.tokens.toList, t.group? ≠ none → t.key ≠ key) →
      after.get? key = selections.get? key) ∧
    after.syncAll p = after ∧
    ∀ order, order.Perm p.groups →
      ∀ key, (selections.syncGroups p order).get? key = after.get? key := by
  intro p after
  refine ⟨fun base group => ⟨fun t => Parsed.mem_members, ?_, fun hnone t ht => ?_⟩,
    fun key => get?_syncAll_of_notMem,
    syncAll_syncAll selections text, fun order horder key => ?_⟩
  · rintro ⟨t, ht, hsome⟩
    obtain ⟨value, hfirst, hvalue⟩ := exists_firstValue ht hsome
    exact ⟨value, hfirst, fun u hu => (get?_syncAll hu).trans hvalue⟩
  · rw [get?_syncAll ht]
    apply groupValue?_of_forall
    · intro key hkey
      obtain ⟨u, hu, rfl⟩ := List.mem_map.1 hkey
      exact hnone u hu
    · exact fun _ => rfl
  · exact get?_syncGroups_of_perm horder key

/-- Two groups, of which one has a value, a token without a group, and a key of no token. -/
example :
    let mark (name : String) := String.ofList (Slot.text ⟨[], name.toList, []⟩)
    let text := String.join (["color", "color_1", "size_1", "color_1", "color_01"].map mark)
    let picked : Selections := .ofList
      [("color-2", .plain "red"), ("color-0", .plain "blue"), ("color-9", .plain "pink")]
    (picked.syncAll (.ofText text)).entries.map (fun e => (e.1, e.2.resolve "en")) =
      [("color-2", "red"), ("color-0", "blue"), ("color-9", "pink"), ("color-1", "red")] := by
  intro mark text picked
  decide +kernel

end Selections

end Stencil
