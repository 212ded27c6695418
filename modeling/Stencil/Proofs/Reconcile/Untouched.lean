import Stencil.Proofs.Reconcile.SecondPass

/-!
# An untouched library

A library that is still the last release gets the new one as a whole and without a word: for each
kind of entry, an entry that is the one of the last release counts as unedited.

* `bankPlan_untouched` — no key gets another name;
* `BankVerdict.of_own_prior` — a bank makes room for the system's, and nothing is told about it;
* `mem_baseTemplates_untouched` — the templates are those of the release, and those it lacks;
* `untouched_upgraded` — the whole library.
-/

namespace Stencil.Reconcile

open Placeholder

variable {config : ReconcileConfig} {language : String} {library release : Library} {key : String}

/-! ## Keys -/

/-- A key is renamed only if the library has a bank in its rename family, or had none under it
before. -/
theorem bankPlan_untouched
    (hfamily : ∀ key ∈ release.banks.keys, ∀ k ∈ library.banks.keys,
      ¬ inFamily k (renameFamily (renameSuffix config) key)) :
    bankPlan config library (some library) release = [] := by
  rw [List.eq_nil_iff_forall_not_mem]
  rintro ⟨key, newKey⟩ h
  have hplanned := planned_of_mem h
  have hkey : key ∈ library.banks.keys := by
    obtain ⟨system, -, hdiffers⟩ := hplanned.differs
    obtain ⟨own, hown, -⟩ := differsFromOwn_iff.1 hdiffers
    exact OrderedMap.mem_keys_of_get? hown
  rcases hplanned.choice with hexisting | ⟨-, -, -, prior, hprior, hnew⟩
  · obtain ⟨hmem, hin⟩ := importedKey?_eq_some hexisting
    exact hfamily key (mem_keys_of_mem_bankPlan h) newKey hmem hin
  · obtain rfl := Option.some.inj hprior
    exact hnew hkey

/-! ## Banks and defaults -/

/-- A bank that is the one of the last release makes room for the system's, if there is one. -/
theorem BankVerdict.of_own_prior (key : String) (own : Bank) (system : Option Bank) :
    (of own (some own) system).result own = system.getD own ∧
      (of own (some own) system).note? key = none := by
  cases system with
  | none => exact ⟨rfl, rfl⟩
  | some system =>
    simp only [of, Option.any_some, Bank.sameOptions_refl, Bool.or_true, if_true]
    split
    · exact ⟨rfl, rfl⟩
    · split <;> exact ⟨rfl, rfl⟩

theorem bankNotes_untouched : bankNotes library (some library) release = [] := by
  refine List.filterMap_eq_nil_iff.2 ?_
  rintro ⟨key, own, verdict⟩ h
  obtain ⟨⟨key', own'⟩, hmem, heq⟩ := List.mem_map.1 h
  obtain ⟨rfl, hverdict⟩ := Prod.mk.inj heq
  obtain ⟨rfl, rfl⟩ := Prod.mk.inj hverdict
  have hprior : (some library).bind (·.banks.get? key') = some own' :=
    OrderedMap.get?_eq_some_iff.2 hmem
  rw [hprior]
  exact (BankVerdict.of_own_prior key' own' _).2

theorem get?_mergeBanks_untouched (library release : Library) (key : String) :
    (mergeBanks library (some library) release).get? key =
      (release.banks.get? key).or (library.banks.get? key) := by
  cases hown : library.banks.get? key with
  | none =>
    have hkey : key ∉ library.banks.keys := OrderedMap.get?_eq_none_iff.1 hown
    rw [Option.or_none]
    ext system
    rw [get?_mergeBanks_of_notMem hkey]
    exact and_iff_left fun prior hprior => Option.some.inj hprior ▸ hkey
  | some own =>
    have hprior : priorBank? (some library) key = some own := hown
    rw [get?_mergeBanks_of_own hown, hprior, (BankVerdict.of_own_prior key own _).1]
    cases release.banks.get? key <;> rfl

theorem takesDefault_self (current : Option Localized) : takesDefault current current := by
  cases current with
  | none => rfl
  | some current => simp [takesDefault, Setoid.refl]

theorem get?_mergeDefaults_untouched (library release : Library) (key : String) :
    (mergeDefaults library (some library) release).get? key =
      (release.defaults.get? key).or (library.defaults.get? key) := by
  have htakes : takesDefault (library.defaults.get? key)
      ((some library).bind (·.defaults.get? key)) = true := takesDefault_self _
  rw [get?_mergeDefaults, htakes]
  cases release.defaults.get? key <;> rfl

/-! ## Templates -/

theorem unedited_untouched {own system : Template} (hids : (library.templates.map (·.id)).Nodup)
    (hown : own ∈ library.templates) :
    Unedited own (priorTemplate? (some library) own.id) system :=
  .inr (.inr ⟨own, Library.template?_of_mem hids hown, agreesWith_refl own⟩)

theorem keptSystems_untouched (hids : (library.templates.map (·.id)).Nodup) :
    keptSystems library (some library) release = [] := by
  rw [List.eq_nil_iff_forall_not_mem]
  intro system hsystem
  obtain ⟨own, hown, -, hedited⟩ := mem_keptSystems.1 hsystem
  exact hedited (unedited_untouched hids hown)

/-- Every template makes room for the system's, if there is one. -/
theorem result_untouched {own : Template} (hids : (library.templates.map (·.id)).Nodup)
    (hown : own ∈ library.templates) :
    (TemplateVerdict.of own (priorTemplate? (some library) own.id)
      (release.template? own.id)).result own = (release.template? own.id).getD own := by
  cases release.template? own.id with
  | none => rfl
  | some system =>
    rcases TemplateVerdict.of_cases own (priorTemplate? (some library) own.id) system with
      ⟨-, hresult, -⟩ | ⟨hedited, -⟩
    · exact hresult
    · exact absurd (unedited_untouched hids hown) hedited

theorem mem_baseTemplates_untouched {t : Template} (hids : (library.templates.map (·.id)).Nodup)
    (hrelease : (release.templates.map (·.id)).Nodup) :
    t ∈ baseTemplates library (some library) release ↔
      t ∈ release.templates ∨ t ∈ library.templates ∧ ¬ release.hasTemplate t.id := by
  have hadded : t ∈ addedTemplates library (some library) release ↔
      t ∈ release.templates ∧ ¬ library.hasTemplate t.id := by
    rw [mem_addedTemplates]
    refine and_congr_right fun _ => and_iff_left_of_imp fun hnew prior hprior => ?_
    exact Option.some.inj hprior ▸ hnew
  have hjudged : t ∈ (judgeTemplates library (some library) release).map
      (fun e => e.2.result e.1) ↔
        ∃ own ∈ library.templates, (release.template? own.id).getD own = t := by
    rw [judgeTemplates, List.map_map, List.mem_map]
    refine exists_congr fun own => and_congr_right fun hown => ?_
    exact iff_of_eq (congrArg (· = t) (result_untouched hids hown))
  rw [baseTemplates, List.mem_append, hjudged, hadded]
  constructor
  · rintro (⟨own, hown, rfl⟩ | ⟨ht, -⟩)
    · cases hsystem : release.template? own.id with
      | none => exact .inr ⟨hown, Library.template?_eq_none.1 hsystem⟩
      | some system => exact .inl (Library.template?_eq_some hsystem).1
    · exact .inl ht
  · rintro (ht | ⟨ht, hnew⟩)
    · by_cases hown : library.hasTemplate t.id
      · obtain ⟨own, hown, hid⟩ := Library.hasTemplate_iff.1 hown
        refine .inl ⟨own, hown, ?_⟩
        rw [hid, Library.template?_of_mem hrelease ht, Option.getD_some]
      · exact .inr ⟨ht, hown⟩
    · exact .inl ⟨t, ht, by rw [Library.template?_eq_none.2 hnew, Option.getD_none]⟩

/-- The templates of the release, and those that it lacks. -/
theorem perm_baseTemplates_untouched (hids : (library.templates.map (·.id)).Nodup)
    (hrelease : (release.templates.map (·.id)).Nodup) :
    (baseTemplates library (some library) release).Perm
      (release.templates ++ library.templates.filter fun t => !release.hasTemplate t.id) := by
  have hnodup : (release.templates ++
      library.templates.filter fun t => !release.hasTemplate t.id).Nodup := by
    refine List.nodup_append.2 ⟨hrelease.of_map _, (hids.of_map _).filter _, ?_⟩
    rintro t ht u hu rfl
    simpa [Library.hasTemplate_id ht] using (List.mem_filter.1 hu).2
  refine (List.perm_ext_iff_of_nodup ?_ hnodup).2 fun t => ?_
  · exact (nodup_ids_baseTemplates hids hrelease).of_map _
  · rw [mem_baseTemplates_untouched hids hrelease, List.mem_append, List.mem_filter,
      Bool.not_eq_true', Bool.not_eq_true]

/-! ## The whole library -/

/-- **An untouched library is upgraded silently and completely.** A library that is still the last
release gets the new one without a note, a renamed key or a backup: the templates, banks and
defaults afterwards are those of the release as they are, and those that the release lacks. -/
theorem untouched_upgraded (config : ReconcileConfig) (language : String)
    (library release : Library) (hids : (library.templates.map (·.id)).Nodup)
    (hrelease : (release.templates.map (·.id)).Nodup)
    (hfamily : ∀ key ∈ release.banks.keys, ∀ k ∈ library.banks.keys,
      ¬ inFamily k (renameFamily (renameSuffix config) key)) :
    let out := reconcile config language library (some library) release
    out.notes = [] ∧ out.summary.keysRenamed = 0 ∧ out.summary.backupsCreated = 0 ∧
      out.library.templates.Perm
        (release.templates ++ library.templates.filter fun t => !release.hasTemplate t.id) ∧
      (∀ key, out.library.banks.get? key =
        (release.banks.get? key).or (library.banks.get? key)) ∧
      ∀ key, out.library.defaults.get? key =
        (release.defaults.get? key).or (library.defaults.get? key) := by
  intro out
  have hplan := bankPlan_untouched hfamily
  have hsystem : importedRelease config library (some library) release = release := by
    rw [importedRelease, hplan]
    rfl
  have hprior : importedBaseline config library (some library) release = some library := by
    rw [importedBaseline, hplan]
    rfl
  have htemplates : mergeTemplates config language library (some library) release =
      { templates := baseTemplates library (some library) release, notes := [] } := by
    rw [mergeTemplates_eq, keptSystems_untouched hids]
    rfl
  refine ⟨?_, ?_, ?_, ?_, ?_, ?_⟩
  · rw [notes_reconcile, hsystem, hprior, hplan, htemplates, bankNotes_untouched]
    rfl
  · exact List.length_eq_zero_iff.2 hplan
  · rw [backupsCreated_reconcile, hsystem, hprior, htemplates]
    rfl
  · rw [templates_reconcile, hsystem, hprior, htemplates]
    exact perm_baseTemplates_untouched hids hrelease
  · rw [banks_reconcile, hsystem, hprior]
    exact get?_mergeBanks_untouched library release
  · rw [defaults_reconcile, hsystem, hprior]
    exact get?_mergeDefaults_untouched library release

/-- A library with a bank, a default and a template that the release changes, and others that it
lacks; the release has a new bank whose key begins like a key of the library. -/
theorem untouched_upgraded_of_changed_bank :
    let bank (options : List String) : Bank :=
      { label := .plain "Mood", options := options.map .plain }
    let template (id content : String) : Template := { id, content := .plain content }
    let library : Library :=
      { templates := [template "old" "x", template "t" "A {{mood}} cat"]
        banks := .ofList [("mood", bank ["calm"]), ("size", bank ["big"])]
        defaults := .ofList [("mood", .plain "calm"), ("size", .plain "")] }
    let release : Library :=
      { templates := [template "t" "A {{mood}} dog", template "new" "y"]
        banks := .ofList [("mood", bank ["wild", "calm"]), ("mood_system", bank ["odd"])]
        defaults := .ofList [("mood", .plain "wild")] }
    let out := reconcile {} "en" library (some library) release
    (library.templates.map (·.id)).Nodup ∧ (release.templates.map (·.id)).Nodup ∧
      (∀ key ∈ release.banks.keys, ∀ k ∈ library.banks.keys,
        ¬ inFamily k (renameFamily (renameSuffix {}) key)) ∧
      out.notes = [] ∧ out.summary.keysRenamed = 0 ∧ out.summary.backupsCreated = 0 ∧
      out.library.templates.Perm
        (release.templates ++ library.templates.filter fun t => !release.hasTemplate t.id) ∧
      (∀ key, out.library.banks.get? key =
        (release.banks.get? key).or (library.banks.get? key)) ∧
      ∀ key, out.library.defaults.get? key =
        (release.defaults.get? key).or (library.defaults.get? key) := by
  intro bank template library release
  have hids : (library.templates.map (·.id)).Nodup := by decide +kernel
  have hrelease : (release.templates.map (·.id)).Nodup := by decide +kernel
  have hfamily : ∀ key ∈ release.banks.keys, ∀ k ∈ library.banks.keys,
      ¬ inFamily k (renameFamily (renameSuffix {}) key) := by decide +kernel
  exact ⟨hids, hrelease, hfamily,
    untouched_upgraded {} "en" library release hids hrelease hfamily⟩

end Stencil.Reconcile
