import Stencil.Proofs.Reconcile.BankImport

/-!
# The plan of a second pass

When a release is reconciled with a library that it was reconciled with before, the keys get the
same names again, as long as no key is in the rename family of another one.

* `KeysApart` — the rename families of a release are free of keys of both releases;
* `get?_importedRelease` — then every bank of the release is found under its imported key;
* `get?_bankPlan_again` — and the second plan is the first one;
* `importedRelease_again`, `importedBaseline_again` — so the second pass merges the library with
  the release that the first one merged it with.
-/

namespace Stencil.Reconcile

open Placeholder

/-- No key of either release is in the rename family of a key of the new one. -/
structure KeysApart (config : ReconcileConfig) (baseline : Option Library) (release : Library) :
    Prop where
  new : ∀ key ∈ release.banks.keys, ∀ k ∈ release.banks.keys,
    ¬ inFamily k (renameFamily (renameSuffix config) key)
  last : ∀ prior, baseline = some prior → ∀ key ∈ release.banks.keys, ∀ k ∈ prior.banks.keys,
    ¬ inFamily k (renameFamily (renameSuffix config) key)

variable {config : ReconcileConfig} {language : String} {user : Library}
  {baseline : Option Library} {release : Library} {key newKey : String}

theorem mem_keys_of_mem_bankPlan (h : (key, newKey) ∈ bankPlan config user baseline release) :
    key ∈ release.banks.keys :=
  let ⟨_, hkey, _⟩ := (planned_of_mem h).differs
  OrderedMap.mem_keys_of_get? hkey

/-- If the user has a bank in the rename family of a key, the bank is imported under that name. -/
theorem get?_bankPlan_of_importedKey? {system : Bank} (hkey : release.banks.get? key = some system)
    (hdiffers : differsFromOwn user key system)
    (h : importedKey? user (renameSuffix config) key = some newKey) :
    (bankPlan config user baseline release).get? key = some newKey := by
  cases hget : (bankPlan config user baseline release).get? key with
  | none =>
    have hnone := (settled_of_notMem hkey hdiffers (Renames.get?_eq_none_iff.1 hget)).1
    rw [hnone] at h
    exact absurd h (by simp)
  | some other =>
    rcases (planned_of_mem (Renames.mem_of_get? hget)).choice with hother | ⟨hnone, -⟩
    · rw [← hother, h]
    · rw [hnone] at h
      exact absurd h (by simp)

/-! ## The imported release -/

theorem target_notMem (hapart : KeysApart config baseline release)
    (h : (key, newKey) ∈ bankPlan config user baseline release) : newKey ∉ release.banks.keys :=
  fun hnew =>
    hapart.new key (mem_keys_of_mem_bankPlan h) newKey hnew (planned_of_mem h).inFamily

theorem get?_importedRelease (hapart : KeysApart config baseline release)
    (hkey : key ∈ release.banks.keys) :
    (importedRelease config user baseline release).banks.get?
        (importedKey (bankPlan config user baseline release) key) = release.banks.get? key := by
  refine Library.get?_renameKeys hkey fun k hk heq => ?_
  refine injOn_importedKey_iff.2 (fun r hr hnew => ?_) hk hkey heq
  exact absurd hnew (target_notMem hapart hr)

/-- A key that is renamed is none of the imported release. -/
theorem notMem_keys_importedRelease (hapart : KeysApart config baseline release)
    (h : (key, newKey) ∈ bankPlan config user baseline release) :
    key ∉ (importedRelease config user baseline release).banks.keys := fun hmem => by
  obtain ⟨k, hk, heq⟩ := Library.mem_keys_renameKeys.1 hmem
  rcases importedKey_cases config user baseline release k with ⟨hstay, hself⟩ | hmove
  · rw [hself] at heq
    subst heq
    exact hstay (List.mem_map_of_mem h)
  · rw [heq] at hmove
    exact target_notMem hapart hmove (mem_keys_of_mem_bankPlan h)

/-- A key of the imported release is in the rename family of a key only if that is renamed to
it. -/
theorem mem_bankPlan_of_inFamily (hapart : KeysApart config baseline release)
    (hkey : key ∈ release.banks.keys)
    (hnew : newKey ∈ (importedRelease config user baseline release).banks.keys)
    (hfamily : inFamily newKey (renameFamily (renameSuffix config) key)) :
    (key, newKey) ∈ bankPlan config user baseline release := by
  obtain ⟨k, hk, heq⟩ := Library.mem_keys_renameKeys.1 hnew
  rcases importedKey_cases config user baseline release k with ⟨-, hself⟩ | hmove
  · rw [hself] at heq
    subst heq
    exact absurd hfamily (hapart.new key hkey k hk)
  · rw [heq] at hmove
    rwa [← eq_of_inFamily_renameFamily (planned_of_mem hmove).inFamily hfamily]

/-! ## The second plan -/

/-- The key a bank was imported under is found in its rename family again. -/
theorem importedKey?_again (hapart : KeysApart config baseline release)
    (h : (key, newKey) ∈ bankPlan config user baseline release) :
    importedKey? (reconcile config language user baseline release).library (renameSuffix config)
      key = some newKey := by
  have hkey := mem_keys_of_mem_bankPlan h
  obtain ⟨⟨system, hsystem, -⟩, hfamily, hchoice⟩ := planned_of_mem h
  unfold importedKey?
  rw [banks_reconcile, keys_mergeBanks, List.find?_append]
  rcases hchoice with hexisting | ⟨hnone, huser, hrelease, prior, rfl, hprior⟩
  · unfold importedKey? at hexisting
    rw [hexisting, Option.some_or]
  · unfold importedKey? at hnone
    rw [hnone, Option.none_or]
    -- the bank was added under the new key, and no other key of the family was
    have hadded : newKey ∈ (addedBanks user (importedBaseline config user (some prior) release)
        (importedRelease config user (some prior) release)).keys := by
      refine mem_keys_addedBanks.2 ⟨?_, huser, ?_⟩
      · exact Library.mem_keys_renameKeys.2 ⟨key, hkey, importedKey_of_mem h⟩
      · rintro _ ⟨⟩
        rw [mem_keys_renameKeys_of_fresh h hrelease hprior]
        exact fun hk => hapart.last prior rfl key hkey newKey hk hfamily
    cases hfind : List.find? (inFamily · (renameFamily (renameSuffix config) key))
        (addedBanks user (importedBaseline config user (some prior) release)
          (importedRelease config user (some prior) release)).keys with
    | none => exact absurd hfamily (List.find?_eq_none.1 hfind newKey hadded)
    | some k =>
      have hk := (mem_keys_addedBanks.1 (List.mem_of_find?_eq_some hfind)).1
      have hplan := mem_bankPlan_of_inFamily hapart hkey hk
        (List.find?_some (p := (inFamily · (renameFamily (renameSuffix config) key))) hfind)
      rw [← importedKey_of_mem h, importedKey_of_mem hplan]

theorem differsFromOwn_again (hapart : KeysApart config baseline release) {system : Bank}
    (h : (key, newKey) ∈ bankPlan config user baseline release)
    (hdiffers : differsFromOwn user key system) :
    differsFromOwn (reconcile config language user baseline release).library key system := by
  obtain ⟨own, hown, hnonblank, hcontents⟩ := differsFromOwn_iff.1 hdiffers
  refine differsFromOwn_iff.2 ⟨own, ?_, hnonblank, hcontents⟩
  -- the imported release has no bank under a renamed key
  rw [banks_reconcile, get?_mergeBanks_of_own hown,
    OrderedMap.get?_eq_none_iff.2 (notMem_keys_importedRelease hapart h)]
  rfl

/-- A bank that came under its own key differs from the user's bank only if it did before. -/
theorem differsFromOwn_of_again (hapart : KeysApart config baseline release)
    (hoptions : user.DistinctOptions) {system : Bank}
    (hsystem : release.banks.get? key = some system)
    (hstay : key ∉ (bankPlan config user baseline release).map Prod.fst)
    (h : differsFromOwn (reconcile config language user baseline release).library key system) :
    differsFromOwn user key system := by
  have himported : (importedRelease config user baseline release).banks.get? key = some system := by
    have hself := importedKey_of_get?_none (Renames.get?_eq_none_iff.2 hstay)
    rw [← hsystem, ← get?_importedRelease hapart (OrderedMap.mem_keys_of_get? hsystem), hself]
  obtain ⟨bank, hbank, -, hcontents⟩ := differsFromOwn_iff.1 h
  rw [banks_reconcile] at hbank
  cases hown : user.banks.get? key with
  | none =>
    -- the bank under the key is the system's
    rw [get?_mergeBanks_of_notMem (OrderedMap.get?_eq_none_iff.1 hown), himported] at hbank
    exact absurd (Bank.sameContents_refl system) (Option.some.inj hbank.1 ▸ hcontents)
  | some own =>
    rw [get?_mergeBanks_of_own hown, himported, Option.some.injEq] at hbank
    subst hbank
    refine differsFromOwn_iff.2 ⟨own, hown, fun hblank => ?_, fun hsame => hcontents ?_⟩
    · rw [BankVerdict.result_of_isBlank hblank] at hcontents
      exact hcontents (Bank.sameContents_refl system)
    · exact BankVerdict.sameContents_result (hoptions.of_get? hown) hsame

/-- A key that kept its name keeps it. -/
theorem notMem_bankPlan_again (hapart : KeysApart config baseline release)
    (hoptions : user.DistinctOptions)
    (hstay : key ∉ (bankPlan config user baseline release).map Prod.fst) :
    key ∉ (bankPlan config (reconcile config language user baseline release).library (some release)
      release).map Prod.fst := fun hmem => by
  obtain ⟨⟨k, newKey⟩, h, rfl⟩ := List.mem_map.1 hmem
  obtain ⟨⟨system, hsystem, hdiffers⟩, hfamily, hchoice⟩ := planned_of_mem h
  have hkey := OrderedMap.mem_keys_of_get? hsystem
  rcases hchoice with hexisting | ⟨-, -, -, prior, hprior, hnew⟩
  · -- the name in the rename family was there before, or added
    have hnone := (settled_of_notMem hsystem
      (differsFromOwn_of_again hapart hoptions hsystem hstay hdiffers) hstay).1
    have hmem := (importedKey?_eq_some hexisting).1
    rw [banks_reconcile, keys_mergeBanks, List.mem_append] at hmem
    rcases hmem with huser | hadded
    · exact importedKey?_eq_none.1 hnone newKey huser hfamily
    · have hplan := mem_bankPlan_of_inFamily hapart hkey (mem_keys_addedBanks.1 hadded).1 hfamily
      exact hstay (List.mem_map_of_mem hplan)
  · obtain rfl := Option.some.inj hprior
    exact hnew hkey

/-- **The second plan is the first.** A second pass with the same release gives every key the name
that the first one gave it. -/
theorem get?_bankPlan_again (hapart : KeysApart config baseline release)
    (hoptions : user.DistinctOptions) (key : String) :
    (bankPlan config (reconcile config language user baseline release).library (some release)
      release).get? key = (bankPlan config user baseline release).get? key := by
  cases h : (bankPlan config user baseline release).get? key with
  | none =>
    exact Renames.get?_eq_none_iff.2
      (notMem_bankPlan_again hapart hoptions (Renames.get?_eq_none_iff.1 h))
  | some newKey =>
    have hmem := Renames.mem_of_get? h
    obtain ⟨system, hsystem, hdiffers⟩ := (planned_of_mem hmem).differs
    exact get?_bankPlan_of_importedKey? hsystem (differsFromOwn_again hapart hmem hdiffers)
      (importedKey?_again hapart hmem)

theorem importedRelease_again (hapart : KeysApart config baseline release)
    (hoptions : user.DistinctOptions) :
    importedRelease config (reconcile config language user baseline release).library (some release)
      release = importedRelease config user baseline release :=
  Library.renameKeys_congr (get?_bankPlan_again hapart hoptions) release

theorem importedBaseline_again (hapart : KeysApart config baseline release)
    (hoptions : user.DistinctOptions) :
    importedBaseline config (reconcile config language user baseline release).library
      (some release) release = some (importedRelease config user baseline release) :=
  congrArg some (importedRelease_again hapart hoptions)

end Stencil.Reconcile
