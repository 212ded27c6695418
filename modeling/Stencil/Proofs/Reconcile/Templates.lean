import Mathlib.Data.List.Nodup
import Mathlib.Data.List.Perm.Basic
import Stencil.Proofs.Reconcile.Outcome

/-!
# What becomes of a template

Every template of a reconciled library is traced to where it comes from. The templates of the user
and the new ones keep their order when backups are put between them.

* `Unedited` — there is nothing of the user in a template;
* `KeepsEdits` — a template has everything that the user's copy has;
* `TemplateVerdict.of_eq_kept_iff` — edited templates, and no others, are kept;
* `BackedUp` — how a backup gets its id, which `exists_backedUp` says of every backup;
* `Traced` — what a trace of merged templates tells; `Traced.insertBackup` is the step that saves
  one more backup, and `exists_isTrace` the whole merge;
* `templates_accounted` — an account of all templates and of all notes about them.
-/

namespace Stencil

/-! ## Look-up by id -/

namespace Library

variable {l : Library} {t : Template} {id : String}

theorem template?_eq_some (h : l.template? id = some t) : t ∈ l.templates ∧ t.id = id :=
  ⟨List.mem_of_find?_eq_some h, by simpa using List.find?_some h⟩

theorem template?_eq_none : l.template? id = none ↔ ¬ l.hasTemplate id := by
  simp [template?, hasTemplate]

theorem hasTemplate_iff : l.hasTemplate id ↔ ∃ t ∈ l.templates, t.id = id := by
  simp [hasTemplate]

theorem hasTemplate_id (h : t ∈ l.templates) : l.hasTemplate t.id := hasTemplate_iff.2 ⟨t, h, rfl⟩

/-- Where ids are distinct, a template is the first one with its id. -/
theorem template?_of_mem (hids : (l.templates.map (·.id)).Nodup) (h : t ∈ l.templates) :
    l.template? t.id = some t := by
  cases hfind : l.template? t.id with
  | none => exact absurd (hasTemplate_id h) (template?_eq_none.1 hfind)
  | some u =>
    obtain ⟨hu, hid⟩ := template?_eq_some hfind
    rw [List.inj_on_of_nodup_map hids hu h hid]

end Library

namespace Reconcile

variable {config : ReconcileConfig} {language : String}

/-! ## Edited templates -/

/-- There is nothing of the user in a template: it is blank, or agrees with a release. -/
def Unedited (own : Template) (prior : Option Template) (system : Template) : Prop :=
  own.isBlank ∨ own.agreesWith system ∨ ∃ p, prior = some p ∧ own.agreesWith p

/-- A template has what the user's copy has, the rest and the tags from the system's copy, and
lacks nothing. -/
structure KeepsEdits (own system t : Template) : Prop where
  id : t.id = own.id
  name : t.name = if own.absent.name then system.name else own.name
  content : t.content = if own.absent.content then system.content else own.content
  selections : t.selections = if own.absent.selections then system.selections else own.selections
  kind : t.kind = if own.absent.kind then system.kind else own.kind
  extra : t.extra = own.extra
  tags : t.tags = system.tags
  absent : t.absent = {}

namespace TemplateVerdict

variable {own system : Template} {prior : Option Template}

/-- The system's copy takes the place of an unedited template; any other one is kept. -/
theorem of_cases (own : Template) (prior : Option Template) (system : Template) :
    Unedited own prior system ∧ (of own prior (some system)).result own = system ∧
        (of own prior (some system)).kept? = none ∨
      ¬ Unedited own prior system ∧ of own prior (some system) = kept system := by
  simp only [of]
  split
  · rename_i h
    rw [Bool.or_eq_true] at h
    exact .inl ⟨h.imp_right .inl, rfl, rfl⟩
  · rename_i h
    rw [Bool.or_eq_true, not_or] at h
    split
    · rename_i hprior
      exact .inl ⟨.inr (.inr ((Option.any_eq_true _ _).1 hprior)), rfl, rfl⟩
    · rename_i hprior
      refine .inr ⟨?_, rfl⟩
      rintro (hblank | hagrees | hedited)
      · exact h.1 hblank
      · exact h.2 hagrees
      · exact hprior ((Option.any_eq_true _ _).2 hedited)

theorem of_eq_kept_iff {release : Option Template} :
    of own prior release = kept system ↔ release = some system ∧ ¬ Unedited own prior system := by
  cases release with
  | none => simp [of]
  | some s =>
    rcases of_cases own prior s with ⟨hunedited, -, hkept⟩ | ⟨hedited, hkept⟩
    · constructor
      · intro h
        simp [h, kept?] at hkept
      · rintro ⟨h, hedited⟩
        exact absurd hunedited (Option.some.inj h ▸ hedited)
    · rw [hkept, kept.injEq, Option.some.injEq]
      exact ⟨fun h => ⟨h, h ▸ hedited⟩, And.left⟩

theorem keepsEdits_result (own system : Template) :
    KeepsEdits own system ((kept system).result own) :=
  ⟨rfl, rfl, rfl, rfl, rfl, rfl, rfl, rfl⟩

end TemplateVerdict

/-! ## Saved versions -/

/-- Some template of the backup family has the body of a system template. -/
def Saved (config : ReconcileConfig) (system : Template) (templates : List Template) : Prop :=
  ∃ t ∈ templates, inFamily t.id (backupFamily config system.id) ∧ t.sameBody system

theorem saved_iff {system : Template} {ts : List Template} :
    Saved config system ts ↔
      ts.any fun t => inFamily t.id (backupFamily config system.id) && t.sameBody system := by
  simp [Saved]

theorem exists_insertAfter (id : String) (new : Template) (ts : List Template) :
    ∃ pre post, ts = pre ++ post ∧ insertAfter id new ts = pre ++ new :: post := by
  induction ts with
  | nil => exact ⟨[], [], rfl, rfl⟩
  | cons t ts ih =>
    by_cases ht : t.id = id
    · exact ⟨[t], ts, rfl, by simp [insertAfter, ht]⟩
    · obtain ⟨pre, post, hts, hinsert⟩ := ih
      exact ⟨t :: pre, post, by simp [hts], by simp [insertAfter, ht, hinsert]⟩

/-- A backup gets the first id of its family that no template has, after `n` others and no more than
there are templates. -/
structure BackedUp (config : ReconcileConfig) (language : String) (system : Template)
    (m m' : Merged) (n : ℕ) : Prop where
  tries : n ≤ m.templates.length
  taken : ∀ k < n, numbered (backupFamily config system.id) k ∈ m.templates.map (·.id)
  free : numbered (backupFamily config system.id) n ∉ m.templates.map (·.id)
  templates : m'.templates =
    insertAfter system.id (backupOf config system (numbered (backupFamily config system.id) n))
      m.templates
  notes : m'.notes = m.notes ++
    [.backedUp (system.name.resolve language) system.id
      (numbered (backupFamily config system.id) n)]

/-- A version that is not saved yet is, since there is always a free id. -/
theorem exists_backedUp (language : String) {m : Merged} {system : Template}
    (h : ¬ Saved config system m.templates) :
    ∃ n, BackedUp config language system m (insertBackup config language m system) n := by
  have htaken (name : String) : m.templates.any (·.id == name) ↔ name ∈ m.templates.map (·.id) := by
    simp
  -- there is one more candidate than there are templates, so not all candidates are taken
  obtain ⟨id, hid⟩ : ∃ id, firstFree? (backupFamily config system.id)
      (fun id => m.templates.any (·.id == id)) m.templates.length = some id :=
    exists_firstFree? _ (fun name => (htaken name).1) (by rw [List.length_map])
  obtain ⟨n, hn, hbefore, hfree, rfl⟩ := firstFree?_eq_some_iff.1 hid
  have hinsert : insertBackup config language m system = _ := if_neg (mt saved_iff.2 h)
  simp only [hid] at hinsert
  refine ⟨n, hn, fun k hk => (htaken _).1 (hbefore k hk), ?_, ?_, ?_⟩
  · rw [← htaken, hfree]
    exact Bool.false_ne_true
  · rw [hinsert]
  · rw [hinsert]

/-- A version that is saved already changes nothing; any other one is put between the templates
under a free id of its backup family. -/
theorem insertBackup_cases (config : ReconcileConfig) (language : String) (m : Merged)
    (system : Template) :
    Saved config system m.templates ∧ insertBackup config language m system = m ∨
      ∃ id pre post, inFamily id (backupFamily config system.id) ∧
        (∀ t ∈ m.templates, t.id ≠ id) ∧ m.templates = pre ++ post ∧
        insertBackup config language m system =
          { templates := pre ++ backupOf config system id :: post
            notes := m.notes ++ [.backedUp (system.name.resolve language) system.id id] } := by
  by_cases hsaved : Saved config system m.templates
  · exact .inl ⟨hsaved, if_pos (saved_iff.1 hsaved)⟩
  · obtain ⟨n, -, -, hfree, htemplates, hnotes⟩ := exists_backedUp language hsaved
    obtain ⟨pre, post, hsplit, hinsert⟩ := exists_insertAfter system.id
      (backupOf config system (numbered (backupFamily config system.id) n)) m.templates
    refine .inr ⟨_, pre, post, inFamily_numbered _ n, by simpa using hfree, hsplit, ?_⟩
    rw [← hinsert, ← htemplates, ← hnotes]

theorem sameBody_refl (t : Template) : t.sameBody t :=
  Template.sameBody_iff.2 ⟨Setoid.refl _, Setoid.refl _, rfl, Setoid.refl _⟩

theorem subset_insertBackup (m : Merged) (system : Template) :
    m.templates ⊆ (insertBackup config language m system).templates := by
  rcases insertBackup_cases config language m system with ⟨-, h⟩ | ⟨id, pre, post, -, -, hsplit, h⟩
  · rw [h]
    exact List.Subset.refl _
  · rw [h, hsplit]
    exact List.append_subset.2 ⟨List.subset_append_left _ _,
      List.Subset.trans (List.subset_cons_self _ _) (List.subset_append_right _ _)⟩

theorem saved_insertBackup (m : Merged) (system : Template) :
    Saved config system (insertBackup config language m system).templates := by
  rcases insertBackup_cases config language m system with
    ⟨hsaved, h⟩ | ⟨id, pre, post, hfamily, -, -, h⟩
  · rwa [h]
  · rw [h]
    exact ⟨backupOf config system id, by simp, hfamily, sameBody_refl system⟩

theorem Saved.mono {system : Template} {ts ts' : List Template} (h : Saved config system ts)
    (hsub : ts ⊆ ts') : Saved config system ts' :=
  let ⟨t, ht, hsaved⟩ := h
  ⟨t, hsub ht, hsaved⟩

theorem subset_foldl_insertBackup (systems : List Template) (m : Merged) :
    m.templates ⊆ (systems.foldl (insertBackup config language) m).templates := by
  induction systems generalizing m with
  | nil => exact List.Subset.refl _
  | cons s ss ih => exact List.Subset.trans (subset_insertBackup m s) (ih _)

/-- After a merge every version that had to be saved is. -/
theorem saved_foldl_insertBackup {systems : List Template} {system : Template} (m : Merged)
    (h : system ∈ systems) :
    Saved config system (systems.foldl (insertBackup config language) m).templates := by
  induction systems generalizing m with
  | nil => simp at h
  | cons s ss ih =>
    rcases List.mem_cons.1 h with rfl | h
    · exact (saved_insertBackup m system).mono (subset_foldl_insertBackup ss _)
    · exact ih _ h

/-- Nothing is left to do where every version is saved. -/
theorem foldl_insertBackup_of_saved {systems : List Template} {m : Merged}
    (h : ∀ s ∈ systems, Saved config s m.templates) :
    systems.foldl (insertBackup config language) m = m := by
  induction systems with
  | nil => rfl
  | cons s ss ih =>
    have hstep : insertBackup config language m s = m :=
      if_pos (saved_iff.1 (h s List.mem_cons_self))
    rw [List.foldl_cons, hstep]
    exact ih fun s' hs' => h s' (List.mem_cons_of_mem _ hs')

/-! ## Traces -/

/-- Where a template of a merge comes from. -/
inductive Origin where
  /-- It is what became of a template of the user. -/
  | own (own : Template)
  /-- It is new in the release. -/
  | added
  /-- It is the saved version of a system template. -/
  | backup (system : Template)

namespace Origin

/-- The template of the user. -/
def own? : Origin → Option Template
  | own t => some t
  | _ => none

/-- It is a saved version. -/
def isBackup : Origin → Bool
  | backup _ => true
  | _ => false

/-- The note on a saved version. -/
def note? (language : String) : Origin × Template → Option Note
  | (backup system, t) => some (.backedUp (system.name.resolve language) system.id t.id)
  | _ => none

end Origin

/-- A template is a copy of a system template, under an id of its backup family that no other
template has. -/
structure IsBackup (config : ReconcileConfig) (templates : List Template) (system t : Template) :
    Prop where
  copy : t = backupOf config system t.id
  inFamily : inFamily t.id (backupFamily config system.id)
  unique : templates.filter (·.id == t.id) = [t]

/-- A trace tells where the merged templates come from: the ones of `base` are among them in the
same order, the others are backups of `systems`, and the notes are on the backups. -/
structure Traced (config : ReconcileConfig) (language : String) (systems : List Template)
    (base trace : List (Origin × Template)) (m : Merged) : Prop where
  templates : trace.map Prod.snd = m.templates
  base : trace.filter (!·.1.isBackup) = base
  notes : m.notes.Perm (trace.filterMap (Origin.note? language))
  backup : ∀ system t, (Origin.backup system, t) ∈ trace →
    system ∈ systems ∧ IsBackup config m.templates system t

/-- A template whose id no other one has is the only one with it. -/
theorem filter_id_new {pre post : List Template} {new : Template}
    (h : ∀ t ∈ pre ++ post, t.id ≠ new.id) :
    (pre ++ new :: post).filter (·.id == new.id) = [new] := by
  rw [List.forall_mem_append] at h
  have hnone {ts : List Template} (hts : ∀ t ∈ ts, t.id ≠ new.id) :
      ts.filter (·.id == new.id) = [] :=
    List.filter_eq_nil_iff.2 fun t ht => by simpa using hts t ht
  rw [List.filter_append, List.filter_cons_of_pos (by simp), hnone h.1, hnone h.2]
  rfl

section Traced

variable {systems : List Template} {base trace : List (Origin × Template)} {m : Merged}

/-- One more backup, and a trace that has it in its place. -/
theorem Traced.insertBackup {system : Template}
    (h : Traced config language systems base trace m) (hsystem : system ∈ systems) :
    ∃ trace', Traced config language systems base trace'
      (Reconcile.insertBackup config language m system) := by
  rcases insertBackup_cases config language m system with
    ⟨-, heq⟩ | ⟨id, pre, post, hfamily, hfree, hsplit, heq⟩
  · exact ⟨trace, by rwa [heq]⟩
  · rw [heq]
    obtain ⟨tpre, tpost, rfl, rfl, rfl⟩ := List.map_eq_append_iff.1 (h.templates.trans hsplit)
    refine ⟨tpre ++ (.backup system, backupOf config system id) :: tpost, ?_, ?_, ?_, ?_⟩
    · simp
    · rw [← h.base]
      simp [Origin.isBackup]
    · have hnotes := h.notes
      rw [List.filterMap_append] at hnotes ⊢
      exact (List.perm_append_singleton _ _).trans ((hnotes.cons _).trans List.perm_middle.symm)
    · intro s t hst
      rw [List.mem_append, List.mem_cons, or_left_comm, ← List.mem_append] at hst
      rcases hst with hnew | hold
      · obtain ⟨hs, rfl⟩ := Prod.mk.inj hnew
        obtain rfl := Origin.backup.inj hs
        refine ⟨hsystem, rfl, hfamily, ?_⟩
        exact filter_id_new fun u hu => hfree u (hsplit ▸ hu)
      · obtain ⟨hs, hcopy, hin, hunique⟩ := h.backup s t hold
        refine ⟨hs, hcopy, hin, ?_⟩
        have ht : t ∈ m.templates := List.mem_of_mem_filter (hunique ▸ List.mem_singleton_self t)
        rw [← hunique, hsplit, List.filter_append, List.filter_append,
          List.filter_cons_of_neg (by simpa [backupOf] using (hfree t ht).symm)]

/-- A merge that saves one version after another has a trace. -/
theorem Traced.foldl_insertBackup {news : List Template}
    (h : Traced config language systems base trace m) (hnews : news ⊆ systems) :
    ∃ trace', Traced config language systems base trace'
      (news.foldl (Reconcile.insertBackup config language) m) := by
  induction news generalizing trace m with
  | nil => exact ⟨trace, h⟩
  | cons s ss ih =>
    obtain ⟨hs, hss⟩ := List.cons_subset.1 hnews
    obtain ⟨trace', h'⟩ := h.insertBackup hs
    exact ih h' hss

theorem Traced.mem_base {o : Origin} {t : Template}
    (h : Traced config language systems base trace m) (hmem : (o, t) ∈ trace) (ho : ¬ o.isBackup) :
    (o, t) ∈ base := by
  rw [← h.base]
  exact List.mem_filter.2 ⟨hmem, by simpa using ho⟩

/-- Nothing else in a trace has the id of a backup. -/
theorem Traced.eq_of_id_eq {system t : Template} {e : Origin × Template}
    (h : Traced config language systems base trace m) (hbackup : (.backup system, t) ∈ trace)
    (he : e ∈ trace) (hid : e.2.id = t.id) : e = (.backup system, t) := by
  have hunique : (trace.filter (·.2.id == t.id)).map Prod.snd = [t] := by
    rw [← (h.backup system t hbackup).2.unique, ← h.templates, List.filter_map]
    rfl
  obtain ⟨x, hx, -⟩ := List.map_eq_singleton_iff.1 hunique
  have hmem {e' : Origin × Template} (he' : e' ∈ trace) (hid' : e'.2.id = t.id) : e' = x := by
    have : e' ∈ trace.filter (·.2.id == t.id) := List.mem_filter.2 ⟨he', by simpa using hid'⟩
    rwa [hx, List.mem_singleton] at this
  rw [hmem he hid, ← hmem hbackup rfl]

end Traced

/-! ## The whole merge -/

variable {user : Library} {baseline : Option Library} {release : Library} {system t : Template}

/-- The copy of a template in the last release. -/
def priorTemplate? (baseline : Option Library) (id : String) : Option Template :=
  baseline.bind (·.template? id)

/-- The system's copies of the edited templates. -/
def keptSystems (user : Library) (baseline : Option Library) (release : Library) : List Template :=
  (judgeTemplates user baseline release).filterMap (·.2.kept?)

/-- The templates of a merge before backups are saved. -/
def baseTemplates (user : Library) (baseline : Option Library) (release : Library) :
    List Template :=
  (judgeTemplates user baseline release).map (fun e => e.2.result e.1) ++
    addedTemplates user baseline release

/-- The same, with where they come from. -/
def baseTrace (user : Library) (baseline : Option Library) (release : Library) :
    List (Origin × Template) :=
  (judgeTemplates user baseline release).map (fun e => (.own e.1, e.2.result e.1)) ++
    (addedTemplates user baseline release).map fun t => (.added, t)

theorem map_snd_baseTrace (user : Library) (baseline : Option Library) (release : Library) :
    (baseTrace user baseline release).map Prod.snd = baseTemplates user baseline release := by
  simp [baseTrace, baseTemplates, Function.comp_def]

theorem mergeTemplates_eq (config : ReconcileConfig) (language : String) (user : Library)
    (baseline : Option Library) (release : Library) :
    mergeTemplates config language user baseline release =
      (keptSystems user baseline release).foldl (insertBackup config language)
        { templates := baseTemplates user baseline release, notes := [] } := rfl

theorem mem_keptSystems :
    system ∈ keptSystems user baseline release ↔
      ∃ own ∈ user.templates, release.template? own.id = some system ∧
        ¬ Unedited own (priorTemplate? baseline own.id) system := by
  have hkept {verdict : TemplateVerdict} :
      verdict.kept? = some system ↔ verdict = .kept system := by
    cases verdict <;> simp [TemplateVerdict.kept?]
  simp only [keptSystems, judgeTemplates, List.filterMap_map, List.mem_filterMap,
    Function.comp_apply, hkept, TemplateVerdict.of_eq_kept_iff]
  rfl

theorem mem_addedTemplates :
    t ∈ addedTemplates user baseline release ↔
      t ∈ release.templates ∧ ¬ user.hasTemplate t.id ∧
        ∀ p, baseline = some p → ¬ p.hasTemplate t.id := by
  cases baseline <;> simp [addedTemplates]

/-- A trace of a whole merge. -/
abbrev IsTrace (config : ReconcileConfig) (language : String) (user : Library)
    (baseline : Option Library) (release : Library) (trace : List (Origin × Template)) : Prop :=
  Traced config language (keptSystems user baseline release) (baseTrace user baseline release) trace
    (mergeTemplates config language user baseline release)

variable (config language user baseline release)

theorem exists_isTrace : ∃ trace, IsTrace config language user baseline release trace := by
  have hbase : ∀ e ∈ baseTrace user baseline release, ¬ e.1.isBackup := fun e he => by
    rcases List.mem_append.1 he with he | he
    all_goals
      obtain ⟨-, -, rfl⟩ := List.mem_map.1 he
      exact Bool.false_ne_true
  have htraced : Traced config language (keptSystems user baseline release)
      (baseTrace user baseline release) (baseTrace user baseline release)
      { templates := baseTemplates user baseline release, notes := [] } := by
    refine ⟨map_snd_baseTrace user baseline release, ?_, ?_,
      fun system t h => absurd rfl (hbase _ h)⟩
    · exact List.filter_eq_self.2 fun e he => by simpa using hbase e he
    · rw [List.filterMap_eq_nil_iff.2]
      rintro ⟨o, t⟩ he
      cases o with
      | backup system => exact absurd rfl (hbase _ he)
      | _ => rfl
  unfold IsTrace
  rw [mergeTemplates_eq]
  exact htraced.foldl_insertBackup (List.Subset.refl _)

variable {config language user baseline release}

/-- What every template of a merge is, by where it comes from. -/
inductive Accounted (config : ReconcileConfig) (user : Library) (baseline : Option Library)
    (release : Library) (templates : List Template) : Origin → Template → Prop
  /-- A template that the release does not have stays as it is. -/
  | untouched {own : Template} (h : ¬ release.hasTemplate own.id) :
    Accounted config user baseline release templates (.own own) own
  /-- An unedited template makes room for the system's copy. -/
  | replaced {own system : Template} (hsystem : release.template? own.id = some system)
      (h : Unedited own (priorTemplate? baseline own.id) system) :
    Accounted config user baseline release templates (.own own) system
  /-- An edited template keeps the edits, and the system's copy is saved. -/
  | kept {own system t : Template} (hsystem : release.template? own.id = some system)
      (h : ¬ Unedited own (priorTemplate? baseline own.id) system)
      (hkeeps : KeepsEdits own system t) (hsaved : Saved config system templates) :
    Accounted config user baseline release templates (.own own) t
  /-- A template is new if neither the user nor the last release has it. -/
  | added {t : Template} (hrelease : t ∈ release.templates) (huser : ¬ user.hasTemplate t.id)
      (hprior : ∀ p, baseline = some p → ¬ p.hasTemplate t.id) :
    Accounted config user baseline release templates .added t
  /-- A backup is a copy of the system's version of an edited template. -/
  | backup {own system t : Template} (hown : own ∈ user.templates)
      (hsystem : release.template? own.id = some system)
      (h : ¬ Unedited own (priorTemplate? baseline own.id) system)
      (hbackup : IsBackup config templates system t) :
    Accounted config user baseline release templates (.backup system) t

section Accounted

variable {trace : List (Origin × Template)} {o : Origin}

theorem mem_baseTrace (h : (o, t) ∈ baseTrace user baseline release) :
    (∃ own ∈ user.templates, o = .own own ∧
        t = (TemplateVerdict.of own (priorTemplate? baseline own.id)
          (release.template? own.id)).result own) ∨
      o = .added ∧ t ∈ addedTemplates user baseline release := by
  rcases List.mem_append.1 h with h | h
  · obtain ⟨⟨own, verdict⟩, hjudged, heq⟩ := List.mem_map.1 h
    obtain ⟨own', hown, hverdict⟩ := List.mem_map.1 hjudged
    obtain ⟨rfl, rfl⟩ := Prod.mk.inj hverdict
    obtain ⟨rfl, rfl⟩ := Prod.mk.inj heq
    exact .inl ⟨own', hown, rfl, rfl⟩
  · obtain ⟨t', ht', heq⟩ := List.mem_map.1 h
    obtain ⟨rfl, rfl⟩ := Prod.mk.inj heq
    exact .inr ⟨rfl, ht'⟩

/-- Every template of a merge is accounted for. -/
theorem accounted_of_mem (h : IsTrace config language user baseline release trace)
    (hmem : (o, t) ∈ trace) :
    Accounted config user baseline release
      (mergeTemplates config language user baseline release).templates o t := by
  by_cases ho : o.isBackup
  · cases o with
    | backup system =>
      obtain ⟨hsystem, hbackup⟩ := h.backup system t hmem
      obtain ⟨own, hown, hrelease, hedited⟩ := mem_keptSystems.1 hsystem
      exact .backup hown hrelease hedited hbackup
    | _ => exact absurd ho Bool.false_ne_true
  · rcases mem_baseTrace (h.mem_base hmem ho) with ⟨own, hown, rfl, rfl⟩ | ⟨rfl, hadded⟩
    · cases hrelease : release.template? own.id with
      | none => exact .untouched (Library.template?_eq_none.1 hrelease)
      | some system =>
        rcases TemplateVerdict.of_cases own (priorTemplate? baseline own.id) system with
          ⟨hunedited, hresult, -⟩ | ⟨hedited, hkept⟩
        · rw [hresult]
          exact .replaced hrelease hunedited
        · have hsystem : system ∈ keptSystems user baseline release :=
            mem_keptSystems.2 ⟨own, hown, hrelease, hedited⟩
          rw [hkept]
          exact .kept hrelease hedited (TemplateVerdict.keepsEdits_result own system)
            (saved_foldl_insertBackup _ hsystem)
    · obtain ⟨hrelease, huser, hprior⟩ := mem_addedTemplates.1 hadded
      exact .added hrelease huser hprior

/-- A template of the user keeps its id. -/
theorem id_result (own : Template) (prior : Option Template) (release : Library) :
    ((TemplateVerdict.of own prior (release.template? own.id)).result own).id = own.id := by
  cases hrelease : release.template? own.id with
  | none => rfl
  | some system =>
    rcases TemplateVerdict.of_cases own prior system with ⟨-, hresult, -⟩ | ⟨-, hkept⟩
    · rw [hresult]
      exact (Library.template?_eq_some hrelease).2
    · rw [hkept]
      rfl

theorem own?_trace (h : IsTrace config language user baseline release trace) :
    trace.filterMap (·.1.own?) = user.templates := by
  have hnone : ∀ e : Origin × Template,
      e.1.own? = if (!e.1.isBackup) = true then e.1.own? else none := by
    rintro ⟨_ | _ | _, t⟩ <;> rfl
  rw [funext hnone, ← List.filterMap_filter, h.base]
  simp [baseTrace, judgeTemplates, Origin.own?, Function.comp_def]

/-- Every template of the user is in the trace, under its id. -/
theorem exists_mem_trace (h : IsTrace config language user baseline release trace) {own : Template}
    (hown : own ∈ user.templates) : ∃ t, (.own own, t) ∈ trace ∧ t.id = own.id := by
  rw [← own?_trace h, List.mem_filterMap] at hown
  obtain ⟨⟨o, t⟩, hmem, ho⟩ := hown
  cases o with
  | own own' =>
    obtain rfl := Option.some.inj ho
    rcases mem_baseTrace (h.mem_base hmem Bool.false_ne_true) with ⟨own, -, heq, rfl⟩ | ⟨heq, -⟩
    · obtain rfl := Origin.own.inj heq
      exact ⟨_, hmem, id_result own' _ release⟩
    · simp at heq
  | _ => simp [Origin.own?] at ho

theorem sublist_ids_trace (h : IsTrace config language user baseline release trace) :
    (user.templates.map (·.id)).Sublist (trace.map (·.2.id)) := by
  have hbase : user.templates.map (·.id) ++ (addedTemplates user baseline release).map (·.id) =
      (baseTrace user baseline release).map (·.2.id) := by
    simp only [baseTrace, judgeTemplates, List.map_append, List.map_map, Function.comp_def,
      id_result]
  have hsub : (baseTrace user baseline release).Sublist trace := h.base ▸ List.filter_sublist
  exact (List.sublist_append_left _ _).trans (hbase ▸ hsub.map _)

end Accounted

/-! ## Reconciled templates -/

/-- A note on a saved version of a template. -/
def Note.isBackup : Note → Bool
  | backedUp _ _ _ => true
  | _ => false

theorem isBackup_of_mem_notes {m : Merged} {systems : List Template}
    {base trace : List (Origin × Template)} {note : Note}
    (h : Traced config language systems base trace m) (hnote : note ∈ m.notes) :
    note.isBackup := by
  obtain ⟨⟨o, t⟩, -, hn⟩ := List.mem_filterMap.1 (h.notes.mem_iff.1 hnote)
  cases o with
  | backup system => exact Option.some.inj hn ▸ rfl
  | _ => simp [Origin.note?] at hn

theorem not_isBackup_of_mem_bankNotes {note : Note} (h : note ∈ bankNotes user baseline release) :
    ¬ note.isBackup := by
  obtain ⟨⟨key, own, verdict⟩, -, hnote⟩ := List.mem_filterMap.1 h
  cases verdict with
  | merged bank added headerKept headerMoved =>
    simp only [BankVerdict.note?, Option.ite_none_right_eq_some, Option.some.injEq] at hnote
    exact hnote.2 ▸ Bool.false_ne_true
  | _ => simp [BankVerdict.note?] at hnote

theorem filter_isBackup_notes (config : ReconcileConfig) (language : String) (user : Library)
    (baseline : Option Library) (release : Library) :
    (reconcile config language user baseline release).notes.filter Note.isBackup =
      (mergeTemplates config language user (importedBaseline config user baseline release)
        (importedRelease config user baseline release)).notes := by
  obtain ⟨trace, htrace⟩ := exists_isTrace config language user
    (importedBaseline config user baseline release) (importedRelease config user baseline release)
  have hrenames : ∀ note ∈ renameNotes user (bankPlan config user baseline release),
      ¬ note.isBackup := fun note hnote => by
    obtain ⟨r, -, rfl⟩ := List.mem_map.1 hnote
    exact Bool.false_ne_true
  rw [notes_reconcile, List.filter_append, List.filter_append, List.filter_eq_nil_iff.2 hrenames,
    List.filter_eq_nil_iff.2 fun _ => not_isBackup_of_mem_bankNotes, List.append_nil,
    List.nil_append]
  exact List.filter_eq_self.2 fun note hnote => isBackup_of_mem_notes htrace hnote

theorem length_filterMap_note? (trace : List (Origin × Template)) :
    (trace.filterMap (Origin.note? language)).length = trace.countP (·.1.isBackup) := by
  rw [List.length_filterMap_eq_countP]
  refine List.countP_congr fun e _ => ?_
  obtain ⟨_ | _ | _, t⟩ := e <;> simp [Origin.note?, Origin.isBackup]

/-- **All templates are accounted for.** The ids of the user's templates all stay, in the same
order. A template that the release does not have is untouched; an edited one keeps its edits, and
the system's copy is saved; every other one is the system's copy, a new template, or a backup under
an id of its own; and the notes and the summary are on the backups, each once. -/
theorem templates_accounted (config : ReconcileConfig) (language : String) (user : Library)
    (baseline : Option Library) (release : Library) :
    let out := reconcile config language user baseline release
    (user.templates.map (·.id)).Sublist (out.library.templates.map (·.id)) ∧
      ∃ trace : List (Origin × Template),
        trace.map Prod.snd = out.library.templates ∧
        trace.filterMap (·.1.own?) = user.templates ∧
        (∀ o t, (o, t) ∈ trace →
          Accounted config user (importedBaseline config user baseline release)
            (importedRelease config user baseline release) out.library.templates o t) ∧
        (out.notes.filter Note.isBackup).Perm (trace.filterMap (Origin.note? language)) ∧
        out.summary.backupsCreated = trace.countP (·.1.isBackup) := by
  intro out
  obtain ⟨trace, htrace⟩ := exists_isTrace config language user
    (importedBaseline config user baseline release) (importedRelease config user baseline release)
  have htemplates : trace.map Prod.snd = out.library.templates := htrace.templates
  refine ⟨?_, trace, htemplates, own?_trace htrace, fun o t => accounted_of_mem htrace, ?_, ?_⟩
  · rw [← htemplates, List.map_map]
    exact sublist_ids_trace htrace
  · rw [filter_isBackup_notes]
    exact htrace.notes
  · rw [backupsCreated_reconcile, htrace.notes.length_eq, length_filterMap_note?]

/-- The release changes two templates. The one that the user edited keeps its text, and the new
version is saved behind it; the other one is replaced. A template of the user's own stays, and a new
one comes last. -/
example :
    let template (id text : String) : Template :=
      { id, name := .plain id, content := .plain text }
    let user : Library :=
      { templates := [template "cat" "my cat", template "own" "mine", template "dog" "a dog"] }
    let prior : Library := { templates := [template "cat" "a cat", template "dog" "a dog"] }
    let release : Library :=
      { templates := [template "cat" "two cats", template "dog" "two dogs", template "owl" "owls"] }
    let out := reconcile {} "en" user (some prior) release
    out.library.templates.map (fun t => (t.id, t.text "en")) =
        [("cat", "my cat"), ("cat_backup", "two cats"), ("own", "mine"), ("dog", "two dogs"),
          ("owl", "owls")] ∧
      out.notes = [.backedUp "cat" "cat" "cat_backup"] ∧ out.summary.backupsCreated = 1 := by
  intro template user prior release out
  decide +kernel

end Reconcile

end Stencil
