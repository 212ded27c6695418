import Stencil.Proofs.Reconcile.Replan

/-!
# Banks in a second pass

A bank that the first pass left to the user is judged again, now with the release as the last one.

* `BankVerdict.result_result` — the verdict on a bank that results from a verdict;
* `bankNotes_again`, `renameNotes_again` — there is nothing to tell about banks;
* `banks_again_iff` — the banks stay exactly if none is left to the user that counts as unedited.
-/

namespace Stencil.Reconcile

variable {config : ReconcileConfig} {language : String} {user out : Library}
  {baseline : Option Library} {release : Library} {key : String} {bank : Bank}

/-- A bank that resulted stays, unless it is blank or has the options of the system's bank. -/
theorem BankVerdict.result_result (own : Bank) (prior : Option Bank) (system : Bank)
    (h : (of own prior (some system)).result own = bank) :
    (of bank (some system) (some system)).result bank =
      if bank.isBlank || bank.sameOptions system then system else bank := by
  rcases result_eq_or_absent own prior system with hsystem | habsent
  · rw [h] at hsystem
    rw [hsystem, result_self, ite_self]
  · rw [h] at habsent
    exact result_again habsent

/-! ## Nothing to tell -/

/-- The keys that the user has were renamed before. -/
theorem renameNotes_again (config : ReconcileConfig) (user release : Library) :
    renameNotes user (bankPlan config user (some release) release) = [] := by
  unfold renameNotes
  rw [List.map_eq_nil_iff, List.filter_eq_nil_iff]
  rintro ⟨key, newKey⟩ h
  have hkey := mem_keys_of_mem_bankPlan h
  rcases (planned_of_mem h).choice with hexisting | ⟨-, -, -, prior, hprior, hnew⟩
  · simpa using OrderedMap.contains_iff.2 (importedKey?_eq_some hexisting).1
  · exact absurd hkey (Option.some.inj hprior ▸ hnew)

theorem bankNotes_again (user release : Library) : bankNotes user (some release) release = [] := by
  unfold bankNotes
  rw [List.filterMap_eq_nil_iff]
  intro e he
  obtain ⟨⟨key, own⟩, -, rfl⟩ := List.mem_map.1 he
  exact BankVerdict.note?_again key own (release.banks.get? key)

/-! ## The banks -/

theorem get?_mergeBanks_again (hout : out.banks = mergeBanks user baseline release)
    (h : out.banks.get? key = some bank) :
    (release.banks.get? key = none ∧
        (mergeBanks out (some release) release).get? key = some bank) ∨
      ∃ system, release.banks.get? key = some system ∧
        (mergeBanks out (some release) release).get? key =
          some (if bank.isBlank || bank.sameOptions system then system else bank) := by
  rw [get?_mergeBanks_of_own h]
  have hprior : priorBank? (some release) key = release.banks.get? key := rfl
  rw [hprior]
  cases hsystem : release.banks.get? key with
  | none => exact .inl ⟨rfl, rfl⟩
  | some system =>
    refine .inr ⟨system, rfl, congrArg some ?_⟩
    rw [hout] at h
    cases hown : user.banks.get? key with
    | none =>
      rw [get?_mergeBanks_of_notMem (OrderedMap.get?_eq_none_iff.1 hown), hsystem] at h
      obtain rfl := Option.some.inj h.1
      rw [BankVerdict.result_self, ite_self]
    | some own =>
      rw [get?_mergeBanks_of_own hown, hsystem, Option.some.injEq] at h
      exact BankVerdict.result_result own _ system h

theorem get?_mergeBanks_again_eq_none (h : out.banks.get? key = none) :
    (mergeBanks out (some release) release).get? key = none := by
  rw [Option.eq_none_iff_forall_ne_some]
  intro system hsystem
  obtain ⟨hrelease, hnew⟩ := (get?_mergeBanks_of_notMem (OrderedMap.get?_eq_none_iff.1 h)).1 hsystem
  exact hnew release rfl (OrderedMap.mem_keys_of_get? hrelease)

/-- The banks stay exactly if every bank that is blank, or has the options of the system's bank, is
the system's. -/
theorem mergeBanks_again_iff (hout : out.banks = mergeBanks user baseline release) :
    mergeBanks out (some release) release ≈ out.banks ↔
      ∀ key bank system, out.banks.get? key = some bank → release.banks.get? key = some system →
        (bank.isBlank ∨ bank.sameOptions system) → bank ≈ system := by
  constructor
  · intro h key bank system hbank hsystem hunedited
    have hkey := h key
    rcases get?_mergeBanks_again hout hbank with ⟨hnone, -⟩ | ⟨system', hsystem', hagain⟩
    · simp [hnone] at hsystem
    · obtain rfl := Option.some.inj (hsystem'.symm.trans hsystem)
      rw [hagain, hbank, if_pos (by simpa using hunedited)] at hkey
      cases hkey with
      | some halike => exact Setoid.symm halike
  · intro h key
    cases hbank : out.banks.get? key with
    | none =>
      rw [get?_mergeBanks_again_eq_none hbank]
      exact .none
    | some bank =>
      rcases get?_mergeBanks_again hout hbank with ⟨-, hagain⟩ | ⟨system, hsystem, hagain⟩
      · rw [hagain]
        exact .some (Setoid.refl bank)
      · rw [hagain]
        refine .some ?_
        split
        · rename_i hunedited
          exact Setoid.symm (h key bank system hbank hsystem (by simpa using hunedited))
        · exact Setoid.refl bank

/-- **Banks in a second pass.** A second pass leaves the banks as they are, exactly if no bank that
the first pass left to the user is blank or has the options of the system's bank, in which case the
system's takes its place. -/
theorem banks_again_iff (config : ReconcileConfig) (language : String) (user : Library)
    (baseline : Option Library) (release : Library) (hapart : KeysApart config baseline release)
    (hoptions : user.DistinctOptions) :
    let out := reconcile config language user baseline release
    let again := reconcile config language out.library (some release) release
    again.library.banks ≈ out.library.banks ↔
      ∀ key bank system, out.library.banks.get? key = some bank →
        (importedRelease config user baseline release).banks.get? key = some system →
          (bank.isBlank ∨ bank.sameOptions system) → bank ≈ system := by
  intro out again
  have hagain : again.library.banks =
      mergeBanks out.library (some (importedRelease config user baseline release))
        (importedRelease config user baseline release) := by
    rw [banks_reconcile, importedBaseline_again hapart hoptions,
      importedRelease_again hapart hoptions]
  rw [hagain]
  exact mergeBanks_again_iff rfl

/-- Keys that are apart and a user's bank that lists no option twice, in which an option was
added. -/
theorem banks_again_of_added_option :
    let library (label : String) (options : List String) : Library :=
      { banks := .ofList [("mood", { label := .plain label, options := options.map .plain })] }
    let user := library "Feelings" ["calm", "wild"]
    let release := library "Mood" ["calm"]
    let out := reconcile {} "en" user none release
    let again := reconcile {} "en" out.library (some release) release
    KeysApart {} none release ∧ user.DistinctOptions ∧
      (again.library.banks ≈ out.library.banks ↔
        ∀ key bank system, out.library.banks.get? key = some bank →
          (importedRelease {} user none release).banks.get? key = some system →
            (bank.isBlank ∨ bank.sameOptions system) → bank ≈ system) := by
  intro library user release
  have hapart : KeysApart {} none release := ⟨by decide +kernel, fun _ h => nomatch h⟩
  have hoptions : user.DistinctOptions := by decide +kernel
  exact ⟨hapart, hoptions, banks_again_iff {} "en" user none release hapart hoptions⟩

/-- A bank of which only the label was edited is kept by the first pass, and lost in the second. -/
theorem banks_not_always_again :
    let library (label : String) : Library :=
      { banks := .ofList [("mood", { label := .plain label, options := [.plain "calm"] })] }
    let user := library "Feelings"
    let release := library "Mood"
    let out := reconcile {} "en" user none release
    let again := reconcile {} "en" out.library (some release) release
    KeysApart {} none release ∧ user.DistinctOptions ∧ out.library.banks ≈ user.banks ∧
      again.library.banks ≈ release.banks ∧ ¬ again.library.banks ≈ out.library.banks := by
  intro library user release
  refine ⟨⟨by decide +kernel, fun _ h => nomatch h⟩, by decide +kernel, ?_, ?_, ?_⟩ <;>
    decide +kernel

end Stencil.Reconcile
