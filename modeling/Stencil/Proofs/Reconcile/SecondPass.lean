import Stencil.Proofs.Reconcile.BanksAgain
import Stencil.Proofs.Reconcile.Ids
import Stencil.Template.Commands

/-!
# A second pass

When a release is reconciled with a library that it was reconciled with before, there is nothing to
tell and nothing to save, and defaults and categories stay as they are. So do the templates, with
one exception.

* `IdsApart` — the ids of a release are distinct, and none could be that of a backup of another one;
* `Emptied` — the exception: an edited template that lacks the content, and gets a blank one;
* `result_again` — what becomes of each template of the first pass;
* `second_pass_quiet` — the whole second pass.
-/

namespace Stencil.Reconcile

variable {config : ReconcileConfig} {language : String} {user out : Library}
  {baseline : Option Library} {release : Library} {key : String}

/-! ## Defaults and categories -/

/-- A default of the system is taken, given the user's and that of the last release. -/
def takesDefault (current prior : Option Localized) : Bool :=
  match current with
  | none => prior.isNone
  | some current => current.isBlank || prior.any fun p => decide (p ≈ current)

theorem get?_mergeDefaults (user : Library) (baseline : Option Library) (release : Library)
    (key : String) :
    (mergeDefaults user baseline release).get? key =
      ((release.defaults.get? key).filter fun _ =>
        takesDefault (user.defaults.get? key) (baseline.bind (·.defaults.get? key))).or
      (user.defaults.get? key) := by
  rw [mergeDefaults, OrderedMap.get?_insertAll, OrderedMap.get?_filter]
  rfl

/-- A blank default is the system's, if that has one. -/
theorem eq_of_isBlank_default {current system : Localized}
    (h : (mergeDefaults user baseline release).get? key = some current)
    (hsystem : release.defaults.get? key = some system) (hblank : current.isBlank) :
    current = system := by
  rw [get?_mergeDefaults, hsystem, Option.filter_some] at h
  split at h
  · exact (Option.some.inj h).symm
  · rename_i htakes
    rw [Option.none_or] at h
    simp [h, takesDefault, hblank] at htakes

/-- The defaults stay: where the system's is taken again, it was taken before or is the same. -/
theorem mergeDefaults_again (hout : out.defaults = mergeDefaults user baseline release) :
    mergeDefaults out (some release) release ≈ out.defaults := by
  intro key
  have hprior : (some release).bind (·.defaults.get? key) = release.defaults.get? key := rfl
  rw [get?_mergeDefaults, hprior]
  cases hsystem : release.defaults.get? key with
  | none => exact Setoid.refl out.defaults key
  | some system =>
    rw [Option.filter_some]
    cases hcurrent : out.defaults.get? key with
    | none => exact .none
    | some current =>
      by_cases htakes : takesDefault (some current) (some system)
      · rw [if_pos htakes]
        refine .some ?_
        rw [takesDefault, Bool.or_eq_true, Option.any_some, decide_eq_true_iff] at htakes
        rcases htakes with hblank | halike
        · exact eq_of_isBlank_default (hout ▸ hcurrent) hsystem hblank ▸ Setoid.refl current
        · exact halike
      · rw [if_neg htakes]
        exact .some (Setoid.refl current)

/-- The categories stay, since the system's are all there. -/
theorem mergeCategories_again (hout : out.categories = mergeCategories user release) :
    mergeCategories out release = out.categories := by
  have hnone : (release.categories.filter fun key _ => !out.categories.contains key).entries =
      [] := by
    refine List.filter_eq_nil_iff.2 fun e he => ?_
    have hkey : e.1 ∈ out.categories.keys := by
      have hsystem := OrderedMap.get?_eq_some_iff.2 he
      rw [hout, mergeCategories, OrderedMap.mem_keys_insertAll]
      by_cases huser : e.1 ∈ user.categories.keys
      · exact .inl huser
      · refine .inr (OrderedMap.mem_keys_filter.2 ⟨e.2, hsystem, ?_⟩)
        simpa [← Bool.not_eq_true, OrderedMap.contains_iff] using huser
    simpa using OrderedMap.contains_iff.2 hkey
  rw [mergeCategories, hnone]
  rfl

/-! ## Templates -/

/-- The ids of a release are distinct, and none is in the backup family of another one. -/
structure IdsApart (config : ReconcileConfig) (release : Library) : Prop where
  distinct : (release.templates.map (·.id)).Nodup
  apart : ∀ id ∈ release.templates.map (·.id), ∀ id' ∈ release.templates.map (·.id),
    id ≠ id' → ¬ inFamily id (backupFamily config id')

theorem IdsApart.importedRelease (h : IdsApart config release) (user : Library)
    (baseline : Option Library) :
    IdsApart config (importedRelease config user baseline release) := by
  have hids := map_id_renameKeys (bankPlan config user baseline release) release
  exact ⟨hids ▸ h.distinct, hids ▸ h.apart⟩

variable {own system t : Template} {templates : List Template} {o : Origin}

theorem agreesWith_of_alike {u : Template} (h : t ≈ u) : t.agreesWith u := by
  obtain ⟨-, hname, hcontent, hselections, -, hkind, hextra, -⟩ := h
  exact Template.agreesWith_iff.2
    ⟨.inr hname, .inr hcontent, .inr hselections, .inr hkind, hextra⟩

theorem agreesWith_refl (t : Template) : t.agreesWith t := agreesWith_of_alike (Setoid.refl t)

/-- An edited template that took what it lacked differs from the system's copy as before. -/
theorem KeepsEdits.agreesWith (h : KeepsEdits own system t) :
    t.agreesWith system = own.agreesWith system := by
  have hfield {α : Type} [Setoid α] [∀ a b : α, Decidable (a ≈ b)] (absent : Bool) (a b : α) :
      decide ((if absent then b else a) ≈ b) = (absent || decide (a ≈ b)) := by
    cases absent <;> simp [Setoid.refl]
  have hkind : ((if own.absent.kind then system.kind else own.kind) == system.kind) =
      (own.absent.kind || own.kind == system.kind) := by
    cases own.absent.kind <;> simp
  simp only [Template.agreesWith, h.absent, h.name, h.content, h.selections, h.kind, h.extra,
    hfield, hkind, Bool.false_or]

theorem KeepsEdits.isBlank_iff (h : KeepsEdits own system t) (hnonblank : ¬ own.isBlank) :
    t.isBlank ↔ own.absent.content ∧ system.isBlank := by
  unfold Template.isBlank at hnonblank ⊢
  rw [h.content]
  cases own.absent.content <;> simp [hnonblank]

/-- An edited template counts as unedited in the next pass only if it is blank. -/
theorem KeepsEdits.isBlank_of_unedited {prior : Option Template} (h : KeepsEdits own system t)
    (hedited : ¬ Unedited own prior system) (hunedited : Unedited t (some system) system) :
    t.isBlank := by
  have hdiffers : ¬ t.agreesWith system := fun hagrees =>
    hedited (.inr (.inl (h.agreesWith ▸ hagrees)))
  rcases hunedited with hblank | hagrees | ⟨p, hp, hagrees⟩
  · exact hblank
  · exact absurd hagrees hdiffers
  · exact absurd hagrees (Option.some.inj hp ▸ hdiffers)

theorem KeepsEdits.result_kept (h : KeepsEdits own system t) :
    (TemplateVerdict.kept system).result t = t := by
  obtain ⟨-, -, -, -, -, -, htags, habsent⟩ := h
  obtain ⟨id, name, content, selections, tags, kind, extra, absent⟩ := t
  subst htags habsent
  rfl

/-- What becomes of a template in a pass in which the last release is the new one. -/
def againResult (release : Library) (t : Template) : Template :=
  (TemplateVerdict.of t (release.template? t.id) (release.template? t.id)).result t

/-- An edited template would become blank: its copy lacks the content, and so does the system's. -/
def Emptied (baseline : Option Library) (release : Library) (own : Template) : Prop :=
  ∃ system, release.template? own.id = some system ∧
    ¬ Unedited own (priorTemplate? baseline own.id) system ∧ own.absent.content ∧ system.isBlank

theorem againResult_of_none (h : release.template? t.id = none) : againResult release t = t := by
  unfold againResult
  rw [h]
  rfl

theorem againResult_of_unedited (hsystem : release.template? t.id = some system)
    (h : Unedited t (some system) system) : againResult release t = system := by
  unfold againResult
  rw [hsystem]
  rcases TemplateVerdict.of_cases t (some system) system with ⟨-, hresult, -⟩ | ⟨hedited, -⟩
  · exact hresult
  · exact absurd h hedited

theorem unedited_self (system : Template) (prior : Option Template) :
    Unedited system prior system := .inr (.inl (agreesWith_refl system))

section Trace

variable {trace : List (Origin × Template)}

/-- The release has no template under the id of a backup. -/
theorem template?_backup (hids : IdsApart config release)
    (h : IsTrace config language user baseline release trace)
    (hmem : (.backup system, t) ∈ trace) : release.template? t.id = none := by
  obtain ⟨hsystem, hbackup⟩ := h.backup system t hmem
  obtain ⟨own, hown, hsystem, -⟩ := mem_keptSystems.1 hsystem
  obtain ⟨hsystem, hid⟩ := Library.template?_eq_some hsystem
  obtain ⟨u, hu, huid⟩ := exists_mem_trace h hown
  cases hfind : release.template? t.id with
  | none => rfl
  | some v =>
    obtain ⟨hv, hvid⟩ := Library.template?_eq_some hfind
    have hne : t.id ≠ system.id := fun heq => by
      have := h.eq_of_id_eq hmem hu (huid.trans (hid.symm.trans heq.symm))
      simp at this
    refine absurd hbackup.inFamily (hids.apart t.id ?_ system.id (List.mem_map_of_mem hsystem) hne)
    exact hvid ▸ List.mem_map_of_mem hv

/-- Every template of a merge stays in the next one, unless it is emptied. -/
theorem againResult_eq_self (hids : IdsApart config release)
    (h : IsTrace config language user baseline release trace) (hmem : (o, t) ∈ trace)
    (hne : ∀ own, o = .own own → ¬ Emptied baseline release own) : againResult release t = t := by
  cases accounted_of_mem h hmem with
  | untouched hrelease => exact againResult_of_none (Library.template?_eq_none.2 hrelease)
  | replaced hsystem hunedited =>
    refine againResult_of_unedited ?_ (unedited_self t _)
    rw [(Library.template?_eq_some hsystem).2, hsystem]
  | @kept own system _ hsystem hedited hkeeps hsaved =>
    unfold againResult
    rw [hkeeps.id, hsystem]
    rcases TemplateVerdict.of_cases t (some system) system with ⟨hunedited, -⟩ | ⟨-, hkept⟩
    · have hblank := hkeeps.isBlank_of_unedited hedited hunedited
      refine absurd ⟨system, hsystem, hedited, ?_⟩ (hne own rfl)
      exact (hkeeps.isBlank_iff fun hown => hedited (.inl hown)).1 hblank
    · rw [hkept, hkeeps.result_kept]
  | added hrelease =>
    exact againResult_of_unedited (Library.template?_of_mem hids.distinct hrelease)
      (unedited_self t _)
  | backup => exact againResult_of_none (template?_backup hids h hmem)

/-- An emptied template makes room for the system's, which differs from it. -/
theorem againResult_of_emptied (h : IsTrace config language user baseline release trace)
    (hmem : (.own own, t) ∈ trace) (hempty : Emptied baseline release own) :
    ∃ system, release.template? t.id = some system ∧ againResult release t = system ∧
      ¬ system ≈ t := by
  obtain ⟨system, hsystem, hedited, hblank⟩ := hempty
  cases accounted_of_mem h hmem with
  | untouched hrelease =>
    rw [Library.template?_eq_none.2 hrelease] at hsystem
    exact absurd hsystem (by simp)
  | replaced hsystem' hunedited =>
    obtain rfl := Option.some.inj (hsystem'.symm.trans hsystem)
    exact absurd hunedited hedited
  | kept hsystem' _ hkeeps =>
    obtain rfl := Option.some.inj (hsystem.symm.trans hsystem')
    have htemplate : release.template? t.id = some system := hkeeps.id ▸ hsystem
    refine ⟨system, htemplate, againResult_of_unedited htemplate (.inl ?_), fun halike => ?_⟩
    · exact (hkeeps.isBlank_iff fun hown => hedited (.inl hown)).2 hblank
    · have hagrees := agreesWith_of_alike (Setoid.symm halike)
      exact hedited (.inr (.inl (hkeeps.agreesWith ▸ hagrees)))

/-- What counts as edited in the next pass was edited before, and is saved. -/
theorem saved_again (hids : IdsApart config release)
    (h : IsTrace config language user baseline release trace) (hmem : (o, t) ∈ trace)
    (hsystem : release.template? t.id = some system)
    (hedited : ¬ Unedited t (some system) system) :
    Saved config system (mergeTemplates config language user baseline release).templates := by
  cases accounted_of_mem h hmem with
  | untouched hrelease =>
    rw [Library.template?_eq_none.2 hrelease] at hsystem
    exact absurd hsystem (by simp)
  | replaced hsystem' =>
    rw [(Library.template?_eq_some hsystem').2, hsystem'] at hsystem
    exact absurd (Option.some.inj hsystem ▸ unedited_self t _) hedited
  | kept hsystem' _ hkeeps hsaved =>
    rw [hkeeps.id, hsystem'] at hsystem
    exact Option.some.inj hsystem ▸ hsaved
  | added hrelease =>
    rw [Library.template?_of_mem hids.distinct hrelease] at hsystem
    exact absurd (Option.some.inj hsystem ▸ unedited_self t _) hedited
  | backup =>
    rw [template?_backup hids h hmem] at hsystem
    exact absurd hsystem (by simp)

/-- A saved version stays saved: even where its template is emptied, the system's is in its
place. -/
theorem saved_map_againResult (hids : IdsApart config release)
    (h : IsTrace config language user baseline release trace)
    (hsystem : system ∈ release.templates)
    (hsaved :
      Saved config system (mergeTemplates config language user baseline release).templates) :
    Saved config system
      ((mergeTemplates config language user baseline release).templates.map
        (againResult release)) := by
  obtain ⟨b, hb, hfamily, hbody⟩ := hsaved
  obtain ⟨⟨o, b⟩, hmem, rfl⟩ := List.mem_map.1 (h.templates ▸ hb)
  by_cases hempty : ∃ own, o = .own own ∧ Emptied baseline release own
  · obtain ⟨own, rfl, hempty⟩ := hempty
    obtain ⟨system', hsystem', hresult, -⟩ := againResult_of_emptied h hmem hempty
    obtain ⟨hrelease, hid⟩ := Library.template?_eq_some hsystem'
    -- an id of the release is in the backup family of its own template at most
    have heq : b.id = system.id := by
      by_contra hne
      refine hids.apart b.id ?_ system.id (List.mem_map_of_mem hsystem) hne hfamily
      exact hid ▸ List.mem_map_of_mem hrelease
    rw [heq, Library.template?_of_mem hids.distinct hsystem] at hsystem'
    obtain rfl := Option.some.inj hsystem'
    exact ⟨system, hresult ▸ List.mem_map_of_mem hb, heq ▸ hfamily, sameBody_refl system⟩
  · have hself := againResult_eq_self hids h hmem fun own ho he => hempty ⟨own, ho, he⟩
    exact ⟨b, List.mem_map.2 ⟨b, hb, hself⟩, hfamily, hbody⟩

end Trace

/-! ## The templates of a second pass -/

theorem addedTemplates_again (out release : Library) :
    addedTemplates out (some release) release = [] := by
  rw [List.eq_nil_iff_forall_not_mem]
  intro t ht
  obtain ⟨hrelease, -, hnew⟩ := mem_addedTemplates.1 ht
  exact hnew release rfl (Library.hasTemplate_id hrelease)

/-- A second pass saves nothing. -/
theorem mergeTemplates_again (hids : IdsApart config release)
    (hout : out.templates = (mergeTemplates config language user baseline release).templates) :
    mergeTemplates config language out (some release) release =
      { templates := out.templates.map (againResult release), notes := [] } := by
  obtain ⟨trace, htrace⟩ := exists_isTrace config language user baseline release
  have hbase : baseTemplates out (some release) release =
      out.templates.map (againResult release) := by
    rw [baseTemplates, addedTemplates_again, List.append_nil, judgeTemplates, List.map_map]
    rfl
  rw [mergeTemplates_eq, hbase]
  refine foldl_insertBackup_of_saved fun system hsystem => ?_
  obtain ⟨t, ht, hrelease, hedited⟩ := mem_keptSystems.1 hsystem
  rw [hout] at ht
  obtain ⟨⟨o, t⟩, hmem, rfl⟩ := List.mem_map.1 (htrace.templates ▸ ht)
  have hprior : priorTemplate? (some release) t.id = some system := hrelease
  rw [hprior] at hedited
  rw [hout]
  exact saved_map_againResult hids htrace (Library.template?_eq_some hrelease).1
    (saved_again hids htrace hmem hrelease hedited)

theorem allAlike_map_iff {α : Type} [Setoid α] {f : α → α} {as : List α} :
    AllAlike (as.map f) as ↔ ∀ a ∈ as, f a ≈ a := by
  induction as with
  | nil => exact iff_of_true trivial (by simp)
  | cons a as ih => exact (and_congr_right fun _ => ih).trans (by simp)

/-- The templates stay exactly if none is emptied. -/
theorem allAlike_again_iff (hids : IdsApart config release)
    (hout : out.templates = (mergeTemplates config language user baseline release).templates) :
    AllAlike (mergeTemplates config language out (some release) release).templates out.templates ↔
      ∀ own ∈ user.templates, ¬ Emptied baseline release own := by
  obtain ⟨trace, htrace⟩ := exists_isTrace config language user baseline release
  rw [mergeTemplates_again hids hout, allAlike_map_iff]
  constructor
  · intro h own hown hempty
    obtain ⟨t, hmem, -⟩ := exists_mem_trace htrace hown
    obtain ⟨system, -, hresult, hdiffers⟩ := againResult_of_emptied htrace hmem hempty
    have ht : t ∈ out.templates := hout ▸ htrace.templates ▸ List.mem_map_of_mem hmem
    exact hdiffers (hresult ▸ h t ht)
  · intro h t ht
    rw [hout] at ht
    obtain ⟨⟨o, t⟩, hmem, rfl⟩ := List.mem_map.1 (htrace.templates ▸ ht)
    have hself : againResult release t = t := by
      refine againResult_eq_self hids htrace hmem ?_
      rintro own rfl
      refine h own ?_
      rw [← own?_trace htrace, List.mem_filterMap]
      exact ⟨_, hmem, rfl⟩
    exact hself.symm ▸ Setoid.refl t

/-! ## The whole pass -/

/-- **A second pass is quiet.** It tells and saves nothing and leaves defaults and categories as
they are; and it leaves the templates as they are exactly if the user edited no template whose copy
lacks the content, with a system's copy that is blank. -/
theorem second_pass_quiet (config : ReconcileConfig) (language : String) (user : Library)
    (baseline : Option Library) (release : Library) (hids : IdsApart config release)
    (hapart : KeysApart config baseline release) (hoptions : user.DistinctOptions) :
    let out := reconcile config language user baseline release
    let again := reconcile config language out.library (some release) release
    again.notes = [] ∧ again.summary.backupsCreated = 0 ∧
      again.library.defaults ≈ out.library.defaults ∧
      again.library.categories = out.library.categories ∧
      (AllAlike again.library.templates out.library.templates ↔
        ∀ own ∈ user.templates, ¬ Emptied (importedBaseline config user baseline release)
          (importedRelease config user baseline release) own) := by
  intro out again
  have hrelease : importedRelease config out.library (some release) release =
      importedRelease config user baseline release := importedRelease_again hapart hoptions
  have hbaseline : importedBaseline config out.library (some release) release =
      some (importedRelease config user baseline release) := importedBaseline_again hapart hoptions
  have hids' := hids.importedRelease user baseline
  have htemplates : mergeTemplates config language out.library
      (some (importedRelease config user baseline release))
      (importedRelease config user baseline release) =
        { templates := out.library.templates.map
            (againResult (importedRelease config user baseline release))
          notes := [] } :=
    mergeTemplates_again hids' (templates_reconcile config language user baseline release)
  refine ⟨?_, ?_, ?_, ?_, ?_⟩
  · rw [notes_reconcile, hbaseline, hrelease, renameNotes_again, bankNotes_again, htemplates]
    rfl
  · rw [backupsCreated_reconcile, hbaseline, hrelease, htemplates]
    rfl
  · rw [defaults_reconcile, hbaseline, hrelease]
    exact mergeDefaults_again rfl
  · rw [categories_reconcile, hrelease]
    exact mergeCategories_again rfl
  · rw [templates_reconcile, hbaseline, hrelease]
    exact allAlike_again_iff hids' rfl

/-- The user edited a template and has a bank of another kind under a key that is new in the
release. The first pass saves the new version and imports the system's bank under another key; the
second one is quiet. -/
theorem second_pass_of_edited_template :
    let mark (name : String) := String.ofList (Placeholder.Slot.text ⟨[], name.toList, []⟩)
    let template (id content : String) : Template := { id, content := .plain content }
    let bank (label : String) (options : List String) : Bank :=
      { label := .plain label, options := options.map .plain }
    let user : Library :=
      { templates := [template "t" ("my " ++ mark "size"), template "own" (mark "mood")]
        banks := .ofList [("mood", bank "Feelings" ["calm", "glad"]),
          ("size", bank "Size" ["big", "my size"])]
        defaults := .ofList [("mood", .plain "calm")] }
    let prior : Library :=
      { templates := [template "t" (mark "size")]
        banks := .ofList [("size", bank "Size" ["big"])] }
    let release : Library :=
      { templates := [template "t" ("a " ++ mark "size"), template "new" (mark "mood")]
        banks := .ofList [("mood", bank "Mood" ["wild"]), ("size", bank "Size" ["big", "small"])]
        defaults := .ofList [("mood", .plain "wild"), ("size", .plain "big")] }
    let out := reconcile {} "en" user (some prior) release
    let again := reconcile {} "en" out.library (some release) release
    out.library.templates.map (fun t => (t.id, t.text "en")) =
        [("t", "my " ++ mark "size"), ("t_backup", "a " ++ mark "size"), ("own", mark "mood"),
          ("new", mark "mood_system")] ∧
      out.library.banks.keys = ["mood", "size", "mood_system"] ∧
      IdsApart {} release ∧ KeysApart {} (some prior) release ∧ user.DistinctOptions ∧
      again.notes = [] ∧ again.summary.backupsCreated = 0 ∧
      again.library.defaults ≈ out.library.defaults ∧
      again.library.categories = out.library.categories ∧
      (AllAlike again.library.templates out.library.templates ↔
        ∀ own ∈ user.templates, ¬ Emptied (importedBaseline {} user (some prior) release)
          (importedRelease {} user (some prior) release) own) := by
  intro mark template bank user prior release
  have hids : IdsApart {} release := ⟨by decide +kernel, by decide +kernel⟩
  have hapart : KeysApart {} (some prior) release := by
    refine ⟨by decide +kernel, fun p hp => ?_⟩
    obtain rfl := Option.some.inj hp
    decide +kernel
  have hoptions : user.DistinctOptions := by decide +kernel
  exact ⟨by decide +kernel, by decide +kernel, hids, hapart, hoptions,
    second_pass_quiet {} "en" user (some prior) release hids hapart hoptions⟩

/-- A copy without content that got one is emptied by a release whose content is blank: the first
pass takes the text away, and the second one the rest. -/
theorem templates_not_always_again :
    let copy : Library :=
      { templates := [{ id := "t", name := .plain "Mine", absent := { content := true } }] }
    let user : Library :=
      { templates := [{ id := "t", name := .plain "Mine", content := .plain "my text",
                        absent := { content := true } }] }
    let release : Library := { templates := [{ id := "t", name := .plain "System" }] }
    let out := reconcile {} "en" user none release
    let again := reconcile {} "en" out.library (some release) release
    copy.setContent? "t" (.plain "my text") = some user ∧
      IdsApart {} release ∧ KeysApart {} none release ∧ user.DistinctOptions ∧
      ¬ AllAlike again.library.templates out.library.templates := by
  intro copy user release
  refine ⟨by rfl, ⟨by decide +kernel, by decide +kernel⟩,
    ⟨by decide +kernel, fun _ h => nomatch h⟩, by decide +kernel, by decide +kernel⟩

end Stencil.Reconcile
