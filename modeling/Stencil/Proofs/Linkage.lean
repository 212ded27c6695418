import Stencil.Linkage
import Stencil.Proofs.OrderedMap
import Stencil.Proofs.Placeholder.Regrouping

/-!
# Groups in step

The groups of a text are *in step* with some selections when linked tokens have alike values, or
none at all.

* `Selections.InStep` — the property, which can be decided: each group is `Uniform`;
* `Selections.InStep.propagate` — picking a value for a token and all linked with it keeps it;
* `Selections.Uniform.syncGroup` — picking the value of a group keeps all groups uniform;
* `Selections.InStep.syncGroup_regroup` — a token that joins a group is brought in step with it;
* `Selections.InStep.regroup_none` — a token that leaves its group disturbs nothing, if its name is
  then read without a group.
-/

namespace Stencil

open Placeholder

/-! ## Linked tokens -/

namespace Placeholder

theorem Token.isLinkedWith_iff {t u : Token} :
    t.isLinkedWith u ↔ ∃ group, t.baseKey = u.baseKey ∧ t.group? = some group ∧
      u.group? = some group := by
  simp only [isLinkedWith, Bool.and_eq_true, Option.isSome_iff_exists, beq_iff_eq]
  constructor
  · rintro ⟨⟨⟨group, ht⟩, hbase⟩, hgroup⟩
    exact ⟨group, hbase, ht, hgroup ▸ ht⟩
  · rintro ⟨group, hbase, ht, hu⟩
    exact ⟨⟨⟨group, ht⟩, hbase⟩, ht.trans hu.symm⟩

theorem Token.linked_symm {t u : Token} (h : t.isLinkedWith u) : u.isLinkedWith t := by
  obtain ⟨group, hbase, ht, hu⟩ := isLinkedWith_iff.1 h
  exact isLinkedWith_iff.2 ⟨group, hbase.symm, hu, ht⟩

theorem Token.linked_trans {t u v : Token} (h : t.isLinkedWith u) (h' : u.isLinkedWith v) :
    t.isLinkedWith v := by
  obtain ⟨group, hbase, ht, hu⟩ := isLinkedWith_iff.1 h
  obtain ⟨group', hbase', hu', hv⟩ := isLinkedWith_iff.1 h'
  obtain rfl : group = group' := Option.some.inj (hu.symm.trans hu')
  exact isLinkedWith_iff.2 ⟨group, hbase.trans hbase', ht, hv⟩

theorem Parsed.mem_members {p : Parsed} {base group : String} {t : Token} :
    t ∈ p.members base group ↔
      t ∈ p.tokens.toList ∧ t.baseKey = base ∧ t.group? = some group := by
  simp [members]

theorem Parsed.mem_groups {p : Parsed} {t : Token} {group : String} (ht : t ∈ p.tokens.toList)
    (hgroup : t.group? = some group) : (t.baseKey, group) ∈ p.groups := by
  rw [groups, List.mem_eraseDups, List.mem_filterMap]
  exact ⟨t, ht, by rw [hgroup]; rfl⟩

variable {text : String} {t : Token}

/-- The keys of the members of a group. -/
def Parsed.memberKeys (p : Parsed) (g : String × String) : List String :=
  (p.members g.1 g.2).map Token.key

/-- A key belongs to a member of one group only. -/
theorem Parsed.eq_of_mem_memberKeys {g g' : String × String} {key : String}
    (h : key ∈ (ofText text).memberKeys g) (h' : key ∈ (ofText text).memberKeys g') : g = g' := by
  obtain ⟨t, ht, rfl⟩ := List.mem_map.1 h
  obtain ⟨u, hu, hkey⟩ := List.mem_map.1 h'
  obtain ⟨htmem, htbase, htgroup⟩ := mem_members.1 ht
  obtain ⟨humem, hubase, hugroup⟩ := mem_members.1 hu
  obtain rfl := eq_of_key_eq htmem humem hkey.symm
  exact Prod.ext (htbase.symm.trans hubase) (Option.some.inj (htgroup.symm.trans hugroup))

/-- The tokens that share a value with `t` are itself and those that are linked with it. -/
theorem Parsed.mem_linked {p : Parsed} (ht : t ∈ p.tokens.toList) {u : Token} :
    u ∈ p.linked t ↔ u ∈ p.tokens.toList ∧ (t = u ∨ t.isLinkedWith u) := by
  unfold linked
  cases hgroup : t.group? with
  | none =>
    have hnot : ¬ t.isLinkedWith u := by simp [Token.isLinkedWith, hgroup]
    rw [List.mem_singleton, or_iff_left hnot]
    exact ⟨fun h => ⟨h ▸ ht, h.symm⟩, fun h => h.2.symm⟩
  | some group =>
    rw [mem_members, Token.isLinkedWith_iff]
    constructor
    · rintro ⟨hu, hbase, hugroup⟩
      exact ⟨hu, .inr ⟨group, hbase.symm, hgroup, hugroup⟩⟩
    · rintro ⟨hu, rfl | ⟨g, hbase, htg, hug⟩⟩
      · exact ⟨hu, rfl, hgroup⟩
      · exact ⟨hu, hbase.symm, hug.trans (htg.symm.trans hgroup)⟩

/-- The key of a token is among those that share a value with the one a key addresses if it is that
one or linked with it. -/
theorem Parsed.key_mem_linkedKeys (ht : t ∈ (ofText text).tokens.toList) {key : String} :
    t.key ∈ (ofText text).linkedKeys key ↔
      ∃ u, (ofText text).find? key = some u ∧ (u = t ∨ u.isLinkedWith t) := by
  cases hfind : (ofText text).find? key with
  | none =>
    -- the key of a token always addresses something
    have hne : t.key ≠ key := by
      rintro rfl
      simp [find?_key ht] at hfind
    simp [linkedKeys, hfind, hne]
  | some u =>
    have hu := (find?_eq_some_iff.1 hfind).1
    simp only [linkedKeys, hfind, Option.some.injEq, exists_eq_left', List.mem_map]
    constructor
    · rintro ⟨v, hv, hkey⟩
      obtain ⟨hvmem, hvu⟩ := (mem_linked hu).1 hv
      exact eq_of_key_eq hvmem ht hkey ▸ hvu
    · intro h
      exact ⟨t, (mem_linked hu).2 ⟨ht, h⟩, rfl⟩

end Placeholder

namespace Selections

/-- Both tokens have alike values, or none. -/
def Alike (selections : Selections) (t u : Token) : Prop :=
  Option.Rel (· ≈ ·) (selections.get? t.key) (selections.get? u.key)

instance (selections : Selections) (t u : Token) : Decidable (selections.Alike t u) :=
  OrderedMap.decidableRel _ _ _

/-- All of some tokens have alike values, or none of them has any. -/
def Uniform (selections : Selections) (members : List Token) : Prop :=
  ∀ t ∈ members, ∀ u ∈ members, selections.Alike t u

/-- Linked tokens have alike values, or none. -/
def InStep (selections : Selections) (p : Parsed) : Prop :=
  ∀ t ∈ p.tokens.toList, ∀ u ∈ p.tokens.toList, t.isLinkedWith u → selections.Alike t u

instance (selections : Selections) (p : Parsed) : Decidable (selections.InStep p) :=
  inferInstanceAs (Decidable (∀ t ∈ p.tokens.toList, ∀ u ∈ p.tokens.toList, _ → _))

variable {selections : Selections} {text : String} {t u : Token}

theorem Alike.of_eq (h : selections.get? t.key = selections.get? u.key) : selections.Alike t u := by
  rw [Alike, h]
  cases selections.get? u.key with
  | none => exact .none
  | some value => exact .some (Setoid.refl value)

/-- Groups are in step if each of them is uniform. -/
theorem inStep_iff_uniform {p : Parsed} :
    selections.InStep p ↔ ∀ base group, selections.Uniform (p.members base group) := by
  constructor
  · intro h base group t ht u hu
    obtain ⟨htmem, htbase, htgroup⟩ := Parsed.mem_members.1 ht
    obtain ⟨humem, hubase, hugroup⟩ := Parsed.mem_members.1 hu
    apply h t htmem u humem
    exact Token.isLinkedWith_iff.2 ⟨group, htbase.trans hubase.symm, htgroup, hugroup⟩
  · intro h t ht u hu hlinked
    obtain ⟨group, hbase, htgroup, hugroup⟩ := Token.isLinkedWith_iff.1 hlinked
    apply h t.baseKey group
    · exact Parsed.mem_members.2 ⟨ht, rfl, htgroup⟩
    · exact Parsed.mem_members.2 ⟨hu, hbase.symm, hugroup⟩

/-! ## Picking values -/

theorem get?_setAll (selections : Selections) (keys : List String) (value : Localized)
    (key : String) :
    (selections.setAll keys value).get? key =
      if key ∈ keys then some value else selections.get? key := by
  have hkeys : (keys.map (·, value)).map Prod.fst = keys := by
    rw [List.map_map]
    exact List.map_id keys
  split
  · rename_i hmem
    refine OrderedMap.get?_insertAll_of_unique (hkeys.symm ▸ hmem) fun e he _ => ?_
    obtain ⟨k, -, rfl⟩ := List.mem_map.1 he
    rfl
  · rename_i hmem
    exact OrderedMap.get?_insertAll_of_notMem (hkeys.symm ▸ hmem)

/-- Setting the values of both tokens or of neither keeps them alike. -/
theorem Alike.setAll {keys : List String} (h : selections.Alike t u) (value : Localized)
    (hkeys : t.key ∈ keys ↔ u.key ∈ keys) : (selections.setAll keys value).Alike t u := by
  rw [Alike, get?_setAll, get?_setAll]
  by_cases ht : t.key ∈ keys
  · rw [if_pos ht, if_pos (hkeys.1 ht)]
    exact .some (Setoid.refl value)
  · rw [if_neg ht, if_neg (mt hkeys.2 ht)]
    exact h

/-- **A value that is picked for a token and all linked with it keeps groups in step.** -/
theorem InStep.propagate (h : selections.InStep (.ofText text)) (key : String) (value : Localized) :
    (selections.propagate (.ofText text) key value).InStep (.ofText text) := by
  intro t ht u hu hlinked
  refine (h t ht u hu hlinked).setAll value ?_
  rw [Parsed.key_mem_linkedKeys ht, Parsed.key_mem_linkedKeys hu]
  constructor
  · rintro ⟨v, hv, rfl | hvt⟩
    · exact ⟨v, hv, .inr hlinked⟩
    · exact ⟨v, hv, .inr (Token.linked_trans hvt hlinked)⟩
  · rintro ⟨v, hv, rfl | hvu⟩
    · exact ⟨v, hv, .inr (Token.linked_symm hlinked)⟩
    · exact ⟨v, hv, .inr (Token.linked_trans hvu (Token.linked_symm hlinked))⟩

/-! ## Synchronised groups -/

section SyncGroup

variable (base group : String) (joiner : Option String)

theorem syncGroup_eq (selections : Selections) (p : Parsed) :
    (selections.syncGroup p base group joiner).2 =
      match selections.groupValue? ((p.members base group).map Token.key) joiner with
      | some value => selections.setAll ((p.members base group).map Token.key) value
      | none => selections := by
  simp only [syncGroup]
  cases selections.groupValue? ((p.members base group).map Token.key) joiner with
  | none => rfl
  | some value => rfl

/-- Without a value for the group, there is none for any member. -/
theorem get?_of_groupValue? {members : List String} {key : String}
    (h : selections.groupValue? members joiner = none) (hkey : key ∈ members) :
    selections.get? key = none := by
  rw [groupValue?, List.findSome?_eq_none_iff] at h
  refine h key ?_
  by_cases hjoiner : some key = joiner
  · simp [← hjoiner]
  · simp [hkey, hjoiner]

/-- Every member of a group that is synchronised has its value, and every other key what it had. -/
theorem get?_syncGroup (selections : Selections) (p : Parsed) (key : String) :
    (selections.syncGroup p base group joiner).2.get? key =
      if key ∈ (p.members base group).map Token.key then
        selections.groupValue? ((p.members base group).map Token.key) joiner
      else selections.get? key := by
  rw [syncGroup_eq]
  split
  · rename_i hvalue
    rw [get?_setAll, hvalue]
  · rename_i hvalue
    split
    · rename_i hkey
      rw [hvalue, get?_of_groupValue? joiner hvalue hkey]
    · rfl

/-- **The members of a group that is synchronised are alike.** -/
theorem uniform_syncGroup (selections : Selections) (p : Parsed) :
    (selections.syncGroup p base group joiner).2.Uniform (p.members base group) := by
  intro t ht u hu
  refine Alike.of_eq ?_
  rw [get?_syncGroup, get?_syncGroup, if_pos (List.mem_map_of_mem ht),
    if_pos (List.mem_map_of_mem hu)]

/-- **A group stays uniform when one is synchronised**, be it itself or another one. -/
theorem Uniform.syncGroup {base' group' : String}
    (h : selections.Uniform ((Parsed.ofText text).members base' group')) :
    (selections.syncGroup (.ofText text) base group joiner).2.Uniform
      ((Parsed.ofText text).members base' group') := by
  by_cases hsame : base' = base ∧ group' = group
  · obtain ⟨rfl, rfl⟩ := hsame
    exact uniform_syncGroup _ _ joiner selections (.ofText text)
  · have hkey : ∀ v ∈ (Parsed.ofText text).members base' group',
        v.key ∉ ((Parsed.ofText text).members base group).map Token.key := by
      intro v hv hmem
      have heq : (base', group') = (base, group) :=
        Parsed.eq_of_mem_memberKeys (List.mem_map_of_mem hv) hmem
      exact hsame (Prod.ext_iff.1 heq)
    intro t ht u hu
    rw [Alike, get?_syncGroup, get?_syncGroup, if_neg (hkey t ht), if_neg (hkey u hu)]
    exact h t ht u hu

end SyncGroup

/-! ## Tokens that change their group -/

section Regroup

variable {base group : String} {cursor : Nat}

/-- A group that a token was not put into has no new members. -/
theorem Uniform.of_replaces {p q : Parsed} (h : selections.Uniform (p.members base group))
    (hreplaces : p.Replaces (fun v w => v.SameName w ∧ w.key = v.key) q t u)
    (hother : ¬ (u.baseKey = base ∧ u.group? = some group)) :
    selections.Uniform (q.members base group) := by
  have hold : ∀ w ∈ q.members base group, ∃ v ∈ p.members base group, w.key = v.key := by
    intro w hw
    obtain ⟨hwmem, hname⟩ := Parsed.mem_members.1 hw
    rcases hreplaces.eq_or_exists (fun v => ⟨.of_slot rfl, rfl⟩) hwmem with
      rfl | ⟨v, hv, hsame, hkey⟩
    · exact absurd hname hother
    · rw [hsame.baseKey, hsame.group] at hname
      exact ⟨v, Parsed.mem_members.2 ⟨hv, hname⟩, hkey⟩
  intro v hv w hw
  obtain ⟨a, ha, hva⟩ := hold v hv
  obtain ⟨b, hb, hwb⟩ := hold w hw
  rw [Alike, hva, hwb]
  exact h a ha b hb

/-- **A group stays uniform when a token joins it or another one**, and is brought in step with
those it joins. -/
theorem Uniform.syncGroup_regroup {g : String}
    (h : selections.Uniform ((Parsed.ofText text).members base group))
    (ht : t ∈ (Parsed.ofText text).tokens.toList) (hg : Text.isNumeral g.toList)
    (joiner : Option String) :
    let after := Parsed.ofText ((Parsed.ofText text).regroup cursor t (some g)).text
    (selections.syncGroup after t.baseKey g joiner).2.Uniform (after.members base group) := by
  intro after
  by_cases hjoined : t.baseKey = base ∧ g = group
  · obtain ⟨rfl, rfl⟩ := hjoined
    exact uniform_syncGroup _ _ joiner selections after
  · obtain ⟨u, hu⟩ := exists_regrouping cursor ht fun g' hg' => Option.some.inj hg' ▸ hg
    obtain ⟨hbase, hgroup, -, hreplaces⟩ := hu.of_readBack (split_trim_join ht hg)
    apply Uniform.syncGroup
    apply h.of_replaces hreplaces
    rintro ⟨hubase, hugroup⟩
    exact hjoined ⟨hbase.symm.trans hubase, Option.some.inj (hgroup.symm.trans hugroup)⟩

/-- **A token that joins a group is brought in step with it**, and the others stay in step. -/
theorem InStep.syncGroup_regroup {g : String} (h : selections.InStep (.ofText text))
    (ht : t ∈ (Parsed.ofText text).tokens.toList) (hg : Text.isNumeral g.toList)
    (joiner : Option String) :
    let after := Parsed.ofText ((Parsed.ofText text).regroup cursor t (some g)).text
    (selections.syncGroup after t.baseKey g joiner).2.InStep after :=
  inStep_iff_uniform.2 fun base group =>
    (inStep_iff_uniform.1 h base group).syncGroup_regroup ht hg joiner

/-- **A token that leaves its group disturbs nothing**, if its base key is read back as it is. -/
theorem InStep.regroup_none (h : selections.InStep (.ofText text))
    (ht : t ∈ (Parsed.ofText text).tokens.toList)
    (hread : Name.split (Text.trim t.baseKey) = ⟨t.baseKey, none⟩) :
    selections.InStep (.ofText ((Parsed.ofText text).regroup cursor t none).text) := by
  obtain ⟨u, hu⟩ := exists_regrouping cursor ht
    (show ∀ g : String, none = some g → Text.isNumeral g.toList from nofun)
  obtain ⟨-, hgroup, -, hreplaces⟩ := hu.of_readBack hread
  refine inStep_iff_uniform.2 fun base group => ?_
  exact (inStep_iff_uniform.1 h base group).of_replaces hreplaces (by simp [hgroup])

end Regroup

end Selections

end Stencil
