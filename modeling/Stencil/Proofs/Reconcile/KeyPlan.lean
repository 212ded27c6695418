import Stencil.Proofs.OrderedMap
import Stencil.Proofs.Reconcile.Family

/-!
# What a plan of renames holds

Facts on `planRenames`, from which everything about imported keys is derived, and on libraries
whose keys it changes.

* `Planned` — why a key is imported under another one; every entry of a plan has such a reason
  (`planned_of_mem`);
* `settled_of_notMem` — why a key of the release keeps its name;
* `importedKey` — the key a bank of the release is imported under;
* `bankPlan` — the plan of a reconciliation;
* `mem_keys_renameKeys`, `get?_renameKeys` — the banks of a library whose keys are changed.
-/

namespace Stencil

open Placeholder

namespace Placeholder.Renames

variable {plan : Renames} {key newKey : String}

theorem mem_of_get? (h : plan.get? key = some newKey) : (key, newKey) ∈ plan := by
  obtain ⟨l₁, l₂, hplan, -⟩ := List.lookup_eq_some_iff.1 h
  rw [← List.mem_reverse, hplan]
  simp

theorem get?_eq_none_iff : plan.get? key = none ↔ key ∉ plan.map Prod.fst := by
  simp only [get?, List.lookup_eq_none_iff, List.mem_reverse, bne_iff_ne, List.mem_map, not_exists,
    not_and]
  exact forall₂_congr fun r _ => ne_comm

theorem get?_eq_some_iff (hnodup : (plan.map Prod.fst).Nodup) :
    plan.get? key = some newKey ↔ (key, newKey) ∈ plan := by
  refine ⟨mem_of_get?, fun h => ?_⟩
  cases hget : plan.get? key with
  | none => exact absurd (List.mem_map_of_mem h) (get?_eq_none_iff.1 hget)
  | some other =>
    have := List.inj_on_of_nodup_map hnodup (mem_of_get? hget) h rfl
    rw [(Prod.mk.inj this).2]

end Placeholder.Renames

namespace Reconcile

section Plan

variable {user : Library} {baseline : Option Library} {release : Library} {suffix : String}
  {plan : Renames} {key newKey : String}

/-! ## The key for one bank -/

theorem differsFromOwn_iff {system : Bank} :
    differsFromOwn user key system ↔
      ∃ own, user.banks.get? key = some own ∧ ¬ own.isBlank ∧ ¬ own.sameContents system := by
  unfold differsFromOwn
  cases user.banks.get? key <;> simp

theorem importedKey?_eq_some (h : importedKey? user suffix key = some newKey) :
    newKey ∈ user.banks.keys ∧ inFamily newKey (renameFamily suffix key) :=
  ⟨List.mem_of_find?_eq_some h, List.find?_some (p := (inFamily · (renameFamily suffix key))) h⟩

theorem importedKey?_eq_none :
    importedKey? user suffix key = none ↔
      ∀ k ∈ user.banks.keys, ¬ inFamily k (renameFamily suffix key) := by
  simp [importedKey?, List.find?_eq_none]

theorem freshKey?_eq_some (h : freshKey? user release suffix plan key = some newKey) :
    inFamily newKey (renameFamily suffix key) ∧ newKey ∉ user.banks.keys ∧
      newKey ∉ release.banks.keys := by
  obtain ⟨hfree, hfamily⟩ := firstFree?_eq_some h
  simp only [Bool.or_eq_false_iff] at hfree
  refine ⟨hfamily, fun hu => ?_, fun hr => ?_⟩
  · simp [OrderedMap.contains_iff.2 hu] at hfree
  · simp [OrderedMap.contains_iff.2 hr] at hfree

theorem exists_freshKey? (user release : Library) (suffix : String) (plan : Renames)
    (key : String) : ∃ newKey, freshKey? user release suffix plan key = some newKey := by
  refine exists_firstFree? (user.banks.keys ++ release.banks.keys ++ plan.map Prod.snd)
    (fun name hname => ?_) (by simp [OrderedMap.keys, OrderedMap.size, Nat.add_assoc])
  simp only [Bool.or_eq_true, OrderedMap.contains_iff, List.any_eq_true, beq_iff_eq] at hname
  rw [List.mem_append, List.mem_append, List.mem_map]
  exact hname

/-- Why a key of the release is imported under another one: the user has a bank of another kind
under it, and either has a bank in its rename family, or the key is new in this release. -/
structure Planned (user : Library) (baseline : Option Library) (release : Library)
    (suffix key newKey : String) : Prop where
  differs : ∃ system, release.banks.get? key = some system ∧ differsFromOwn user key system
  inFamily : inFamily newKey (renameFamily suffix key)
  choice : importedKey? user suffix key = some newKey ∨
    importedKey? user suffix key = none ∧ newKey ∉ user.banks.keys ∧
      newKey ∉ release.banks.keys ∧ ∃ prior, baseline = some prior ∧ key ∉ prior.banks.keys

theorem planned_of_newKey? {system : Bank} (hkey : release.banks.get? key = some system)
    (hdiffers : differsFromOwn user key system)
    (h : newKey? user baseline release suffix plan key = some newKey) :
    Planned user baseline release suffix key newKey := by
  unfold newKey? at h
  split at h
  · rename_i existing hexisting
    obtain rfl := Option.some.inj h
    exact ⟨⟨system, hkey, hdiffers⟩, (importedKey?_eq_some hexisting).2, .inl hexisting⟩
  · rename_i hnone
    split at h
    · rename_i prior
      split at h
      · simp at h
      · rename_i hprior
        obtain ⟨hfamily, huser, hrelease⟩ := freshKey?_eq_some h
        refine ⟨⟨system, hkey, hdiffers⟩, hfamily, .inr ⟨hnone, huser, hrelease, prior, rfl, ?_⟩⟩
        exact fun hk => hprior (OrderedMap.contains_iff.2 hk)
    · simp at h

/-- A bank that differs from the user's keeps its key only if the user has no bank in its rename
family, and it is not known to be new. -/
theorem newKey?_eq_none (h : newKey? user baseline release suffix plan key = none) :
    importedKey? user suffix key = none ∧
      ∀ prior, baseline = some prior → key ∈ prior.banks.keys := by
  unfold newKey? at h
  split at h
  · simp at h
  · rename_i hnone
    refine ⟨hnone, fun prior hprior => ?_⟩
    subst hprior
    by_contra hkey
    obtain ⟨fresh, hfresh⟩ := exists_freshKey? user release suffix plan key
    simp [OrderedMap.contains_iff, hkey, hfresh] at h

/-! ## The plan for all banks -/

theorem mem_foldl_extendPlan {entries : List (String × Bank)} {r : String × String}
    (h : r ∈ entries.foldl (extendPlan user baseline release suffix) plan) :
    r ∈ plan ∨ ∃ system earlier, (r.1, system) ∈ entries ∧ differsFromOwn user r.1 system ∧
      newKey? user baseline release suffix earlier r.1 = some r.2 := by
  induction entries generalizing plan with
  | nil => exact .inl h
  | cons e es ih =>
    rw [List.foldl_cons] at h
    rcases ih h with hr | ⟨system, earlier, hmem, hdiffers, hnew⟩
    · unfold extendPlan at hr
      split at hr
      · rename_i hdiffers
        split at hr
        · rename_i newKey hnew
          rw [List.mem_append, List.mem_singleton] at hr
          rcases hr with hr | rfl
          · exact .inl hr
          · exact .inr ⟨e.2, plan, List.mem_cons_self, hdiffers, hnew⟩
        · exact .inl hr
      · exact .inl hr
    · exact .inr ⟨system, earlier, List.mem_cons_of_mem _ hmem, hdiffers, hnew⟩

theorem subset_foldl_extendPlan (entries : List (String × Bank)) :
    plan ⊆ entries.foldl (extendPlan user baseline release suffix) plan := by
  induction entries generalizing plan with
  | nil => exact List.Subset.refl _
  | cons e es ih =>
    refine List.Subset.trans ?_ ih
    unfold extendPlan
    split
    · split
      · exact List.subset_append_left _ _
      · exact List.Subset.refl _
    · exact List.Subset.refl _

theorem exists_newKey?_eq_none {entries : List (String × Bank)} {system : Bank}
    (hmem : (key, system) ∈ entries) (hdiffers : differsFromOwn user key system)
    (h : key ∉ (entries.foldl (extendPlan user baseline release suffix) plan).map Prod.fst) :
    ∃ earlier, newKey? user baseline release suffix earlier key = none := by
  induction entries generalizing plan with
  | nil => simp at hmem
  | cons e es ih =>
    rw [List.foldl_cons] at h
    rcases List.mem_cons.1 hmem with rfl | hmem
    · refine ⟨plan, ?_⟩
      cases hnew : newKey? user baseline release suffix plan key with
      | none => rfl
      | some newKey =>
        -- the entry added here stays in the plan
        have hentry :
            (key, newKey) ∈ extendPlan user baseline release suffix plan (key, system) := by
          simp [extendPlan, hdiffers, hnew]
        exact absurd (List.mem_map_of_mem (subset_foldl_extendPlan es hentry)) h
    · exact ih hmem h

theorem keys_foldl_extendPlan (entries : List (String × Bank)) :
    ((entries.foldl (extendPlan user baseline release suffix) plan).map Prod.fst).Sublist
      (plan.map Prod.fst ++ entries.map Prod.fst) := by
  induction entries generalizing plan with
  | nil => simp
  | cons e es ih =>
    refine ih.trans ?_
    rw [List.map_cons, List.append_cons]
    refine List.Sublist.append_right ?_ _
    unfold extendPlan
    split
    · split
      · simp
      · exact List.sublist_append_left _ _
    · exact List.sublist_append_left _ _

variable (user baseline release suffix)

theorem nodup_keys_planRenames :
    ((planRenames user baseline release suffix).map Prod.fst).Nodup :=
  release.banks.nodup_keys.sublist (keys_foldl_extendPlan release.banks.entries)

variable {user baseline release suffix}

theorem planned_of_mem (h : (key, newKey) ∈ planRenames user baseline release suffix) :
    Planned user baseline release suffix key newKey := by
  rcases mem_foldl_extendPlan h with h | ⟨system, earlier, hmem, hdiffers, hnew⟩
  · simp at h
  · exact planned_of_newKey? (OrderedMap.get?_eq_some_iff.2 hmem) hdiffers hnew

/-- A key of the release that is not renamed is one under which the user has no other bank, or one
that the user's library shows no sign of having been renamed. -/
theorem settled_of_notMem {system : Bank} (hkey : release.banks.get? key = some system)
    (hdiffers : differsFromOwn user key system)
    (h : key ∉ (planRenames user baseline release suffix).map Prod.fst) :
    importedKey? user suffix key = none ∧
      ∀ prior, baseline = some prior → key ∈ prior.banks.keys := by
  obtain ⟨earlier, hnone⟩ := exists_newKey?_eq_none (OrderedMap.get?_eq_some_iff.1 hkey) hdiffers h
  exact newKey?_eq_none hnone

end Plan

/-! ## Imported keys -/

/-- The key under which a bank of the release is imported. -/
def importedKey (plan : Renames) (key : String) : String := (plan.get? key).getD key

theorem importedKey_of_get? {plan : Renames} {key newKey : String}
    (h : plan.get? key = some newKey) : importedKey plan key = newKey := by
  rw [importedKey, h, Option.getD_some]

theorem importedKey_of_get?_none {plan : Renames} {key : String} (h : plan.get? key = none) :
    importedKey plan key = key := by
  rw [importedKey, h, Option.getD_none]

/-- The bank keys of a release that a reconciliation gives another name. -/
def bankPlan (config : ReconcileConfig) (user : Library) (baseline : Option Library)
    (release : Library) : Renames :=
  planRenames user baseline release (renameSuffix config)

section BankPlan

variable {config : ReconcileConfig} {user : Library} {baseline : Option Library}
  {release : Library} {key newKey : String}

theorem nodup_keys_bankPlan : ((bankPlan config user baseline release).map Prod.fst).Nodup :=
  nodup_keys_planRenames ..

theorem importedKey_of_mem (h : (key, newKey) ∈ bankPlan config user baseline release) :
    importedKey (bankPlan config user baseline release) key = newKey :=
  importedKey_of_get? ((Renames.get?_eq_some_iff nodup_keys_bankPlan).2 h)

/-- A key is imported under itself, or under a key that the plan gives it. -/
theorem importedKey_cases (config : ReconcileConfig) (user : Library) (baseline : Option Library)
    (release : Library) (key : String) :
    key ∉ (bankPlan config user baseline release).map Prod.fst ∧
        importedKey (bankPlan config user baseline release) key = key ∨
      (key, importedKey (bankPlan config user baseline release) key) ∈
        bankPlan config user baseline release := by
  cases h : (bankPlan config user baseline release).get? key with
  | none => exact .inl ⟨Renames.get?_eq_none_iff.1 h, importedKey_of_get?_none h⟩
  | some newKey => exact .inr (importedKey_of_get? h ▸ Renames.mem_of_get? h)

/-- No two keys are renamed to the same. -/
theorem eq_of_mem_bankPlan {key' : String}
    (h : (key, newKey) ∈ bankPlan config user baseline release)
    (h' : (key', newKey) ∈ bankPlan config user baseline release) : key = key' :=
  eq_of_inFamily_renameFamily (planned_of_mem h).inFamily (planned_of_mem h').inFamily

end BankPlan

end Reconcile

namespace Library

open Reconcile

variable {plan : Renames} {l : Library} {key : String}

theorem banks_renameKeys :
    (l.renameKeys plan).banks =
      if plan.isEmpty then l.banks else l.banks.mapKeys (importedKey plan) := by
  unfold renameKeys
  split <;> rfl

theorem mem_keys_renameKeys :
    key ∈ (l.renameKeys plan).banks.keys ↔ ∃ k ∈ l.banks.keys, importedKey plan k = key := by
  rw [banks_renameKeys]
  split
  · rename_i hempty
    rw [List.isEmpty_iff.1 hempty]
    simp [importedKey, Renames.get?]
  · exact OrderedMap.mem_keys_mapKeys

/-- A bank whose key is the only one imported under its new key is found there. -/
theorem get?_renameKeys (hkey : key ∈ l.banks.keys)
    (h : ∀ k ∈ l.banks.keys, importedKey plan k = importedKey plan key → k = key) :
    (l.renameKeys plan).banks.get? (importedKey plan key) = l.banks.get? key := by
  rw [banks_renameKeys]
  split
  · rename_i hempty
    rw [List.isEmpty_iff.1 hempty]
    rfl
  · exact OrderedMap.get?_mapKeys hkey h

/-- Only what a plan says of each key matters to a library whose keys it changes. -/
theorem renameKeys_congr {plan plan' : Renames} (h : ∀ key, plan.get? key = plan'.get? key)
    (l : Library) : l.renameKeys plan = l.renameKeys plan' := by
  have hget : Renames.get? plan = Renames.get? plan' := funext h
  have hempty : plan.isEmpty = plan'.isEmpty := by
    rw [Bool.eq_iff_iff, List.isEmpty_iff, List.isEmpty_iff, ← List.map_eq_nil_iff (f := Prod.fst),
      ← List.map_eq_nil_iff (f := Prod.fst), List.eq_nil_iff_forall_not_mem,
      List.eq_nil_iff_forall_not_mem]
    simp only [← Renames.get?_eq_none_iff, h]
  have htemplate : Template.renameKeys plan = Template.renameKeys plan' := by
    funext t
    have hbases : renameBases plan = renameBases plan' := by
      funext text
      simp only [renameBases, hget]
    have hselections : renameSelectionKey plan = renameSelectionKey plan' := by
      funext key
      simp only [renameSelectionKey, hget]
    simp only [Template.renameKeys, hempty, hbases, hselections]
  simp only [renameKeys, hempty, htemplate, hget]

end Library

end Stencil
