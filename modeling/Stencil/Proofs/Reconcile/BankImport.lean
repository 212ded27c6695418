import Mathlib.Data.Set.Operations
import Stencil.Proofs.Reconcile.Banks
import Stencil.Proofs.Reconcile.Outcome

/-!
# Where the banks of a release end up

A bank of a release is imported under its own key or under the key that the plan gives it. A key of
its rename family that the user has is taken as it is; a fresh one is free in the user's library and
in the release.

* `injOn_importedKey_iff` — when no two banks of a release come under one key;
* `get?_banks_reconcile_of_fresh` — when a bank comes out under its fresh key;
* `release_banks_imported_iff` — what both say of a reconciliation.
-/

namespace Stencil.Reconcile

open Placeholder

variable {config : ReconcileConfig} {language : String} {user : Library}
  {baseline : Option Library} {release : Library} {key newKey : String}

/-- No two banks of a release are imported under one key, exactly if none is renamed to the key of
another one that keeps it. -/
theorem injOn_importedKey_iff :
    Set.InjOn (importedKey (bankPlan config user baseline release))
        {key | key ∈ release.banks.keys} ↔
      ∀ r ∈ bankPlan config user baseline release, r.2 ∈ release.banks.keys →
        r.2 ∈ (bankPlan config user baseline release).map Prod.fst := by
  constructor
  · rintro hinj ⟨key, newKey⟩ hr hrelease
    have hplanned := planned_of_mem hr
    obtain ⟨system, hkey, -⟩ := hplanned.differs
    rcases importedKey_cases config user baseline release newKey with ⟨-, hself⟩ | hnew
    · -- a target that keeps its name is the key of two banks
      have heq := hinj hrelease (OrderedMap.mem_keys_of_get? hkey)
        (hself.trans (importedKey_of_mem hr).symm)
      exact absurd heq (ne_of_inFamily_renameFamily hplanned.inFamily)
    · exact List.mem_map_of_mem hnew
  · intro h key hkey key' hkey' heq
    rcases importedKey_cases config user baseline release key with ⟨hstay, hself⟩ | hmove <;>
      rcases importedKey_cases config user baseline release key' with ⟨hstay', hself'⟩ | hmove'
    · rw [← hself, heq, hself']
    · rw [← heq, hself] at hmove'
      exact absurd (h _ hmove' hkey) hstay
    · rw [heq, hself'] at hmove
      exact absurd (h _ hmove hkey') hstay'
    · rw [heq] at hmove
      exact eq_of_mem_bankPlan hmove hmove'

/-! ## Fresh keys -/

/-- Only the renamed bank, and one that has the fresh key already, are imported under it. -/
theorem eq_of_importedKey_eq {k : String}
    (h : (key, newKey) ∈ bankPlan config user baseline release)
    (hk : importedKey (bankPlan config user baseline release) k = newKey) :
    k = key ∨ k = newKey := by
  rcases importedKey_cases config user baseline release k with ⟨-, hself⟩ | hmove
  · exact .inr (hself.symm.trans hk)
  · rw [hk] at hmove
    exact .inl (eq_of_mem_bankPlan hmove h)

/-- The release with renamed keys has the renamed bank under its fresh key. -/
theorem get?_renameKeys_of_fresh (h : (key, newKey) ∈ bankPlan config user baseline release)
    (hrelease : newKey ∉ release.banks.keys) :
    (release.renameKeys (bankPlan config user baseline release)).banks.get? newKey =
      release.banks.get? key := by
  obtain ⟨system, hkey, -⟩ := (planned_of_mem h).differs
  have himported := importedKey_of_mem h
  rw [← himported]
  refine Library.get?_renameKeys (OrderedMap.mem_keys_of_get? hkey) fun k hk heq => ?_
  rcases eq_of_importedKey_eq h (heq.trans himported) with rfl | rfl
  · rfl
  · exact absurd hk hrelease

/-- Renaming its keys gives the last release no bank under a fresh key. -/
theorem mem_keys_renameKeys_of_fresh {prior : Library}
    (h : (key, newKey) ∈ bankPlan config user (some prior) release)
    (hrelease : newKey ∉ release.banks.keys) (hkey : key ∉ prior.banks.keys) :
    newKey ∈ (prior.renameKeys (bankPlan config user (some prior) release)).banks.keys ↔
      newKey ∈ prior.banks.keys := by
  rw [Library.mem_keys_renameKeys]
  constructor
  · rintro ⟨k, hk, heq⟩
    rcases eq_of_importedKey_eq h heq with rfl | rfl
    · exact absurd hk hkey
    · exact hk
  · intro hprior
    refine ⟨newKey, hprior, ?_⟩
    rcases importedKey_cases config user (some prior) release newKey with ⟨-, hself⟩ | hmove
    · exact hself
    · obtain ⟨system, hsystem, -⟩ := (planned_of_mem hmove).differs
      exact absurd (OrderedMap.mem_keys_of_get? hsystem) hrelease

/-- A bank that is imported under a key that the user does not have comes out unchanged under it,
exactly if the last release has no bank under it. -/
theorem get?_banks_reconcile_of_fresh
    (h : (key, newKey) ∈ bankPlan config user baseline release)
    (huser : newKey ∉ user.banks.keys) :
    ∃ system, release.banks.get? key = some system ∧
      ((reconcile config language user baseline release).library.banks.get? newKey = some system ↔
        ∀ prior, baseline = some prior → newKey ∉ prior.banks.keys) := by
  obtain ⟨⟨system, hkey, -⟩, hfamily, hchoice⟩ := planned_of_mem h
  rcases hchoice with hexisting | ⟨-, -, hrelease, prior, rfl, hprior⟩
  · exact absurd (importedKey?_eq_some hexisting).1 huser
  · refine ⟨system, hkey, ?_⟩
    rw [banks_reconcile, get?_mergeBanks_of_notMem huser, importedRelease,
      get?_renameKeys_of_fresh h hrelease, hkey, importedBaseline]
    simp [mem_keys_renameKeys_of_fresh h hrelease hprior]

/-- **Imported banks.** In a reconciliation, the banks of the release come under distinct keys
exactly if none is renamed to the key of another one that keeps it; and a bank renamed to a key that
the user does not have comes out under it unchanged, exactly if the last release has no bank under
that key. -/
theorem release_banks_imported_iff (config : ReconcileConfig) (language : String) (user : Library)
    (baseline : Option Library) (release : Library) :
    let plan := bankPlan config user baseline release
    (Set.InjOn (importedKey plan) {key | key ∈ release.banks.keys} ↔
        ∀ r ∈ plan, r.2 ∈ release.banks.keys → r.2 ∈ plan.map Prod.fst) ∧
      ∀ r ∈ plan, r.2 ∉ user.banks.keys →
        ∃ system, release.banks.get? r.1 = some system ∧
          ((reconcile config language user baseline release).library.banks.get? r.2 = some system ↔
            ∀ prior, baseline = some prior → r.2 ∉ prior.banks.keys) :=
  ⟨injOn_importedKey_iff, fun _ hr => get?_banks_reconcile_of_fresh hr⟩

/-- Two banks of a release can come under one key, since a key of the rename family that the user
has is not compared with the keys of the release; and a bank can get lost under a fresh key, since
that is not compared with the keys of the last release. -/
theorem release_banks_not_always_imported :
    let paint : Bank := { label := .plain "Paint", options := [.plain "matte"] }
    let screen : Bank := { label := .plain "Screen", options := [.plain "rgb"] }
    let color : Bank := { label := .plain "Color", options := [.plain "red"] }
    let library (banks : List (String × Bank)) : Library := { banks := .ofList banks }
    let user := library [("color", paint), ("color_system", screen)]
    let release := library [("color", color), ("color_system", screen)]
    ¬ Set.InjOn (importedKey (bankPlan {} user none release)) {key | key ∈ release.banks.keys} ∧
      ∀ language,
        let user := library [("color", paint)]
        let prior := library [("color_system", screen)]
        let release := library [("color", color)]
        bankPlan {} user (some prior) release = [("color", "color_system")] ∧
          (reconcile {} language user (some prior) release).library.banks.get? "color_system" =
            none := by
  intro paint screen color library user release
  have hcolor : "color" ∈ release.banks.keys := by decide +kernel
  have hsystem : "color_system" ∈ release.banks.keys := by decide +kernel
  have heq : importedKey (bankPlan {} user none release) "color" =
      importedKey (bankPlan {} user none release) "color_system" := by decide +kernel
  refine ⟨fun hinj => absurd (hinj hcolor hsystem heq) (by decide), fun language => ?_⟩
  refine ⟨by decide +kernel, ?_⟩
  rw [← Option.isNone_iff_eq_none]
  change (OrderedMap.get? (mergeBanks _ _ _) _).isNone = true
  decide +kernel

end Stencil.Reconcile
