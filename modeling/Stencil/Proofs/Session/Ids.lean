import Stencil.Proofs.Library.Commands
import Stencil.Proofs.Reconcile.Ids
import Stencil.Proofs.Session.Commands

/-!
# Ids of templates

Whatever a user does, no two templates get the same id.

* `Session.Act`, `Session.act`, `Session.actAll` — all that a user does: commands on templates, on
  banks and on the template that is edited, and reconciliations;
* `Session.ids_perform` — a command on the template that is edited keeps all ids;
* `Session.nodup_ids_act` is the step, and `Session.ids_stay_distinct` the whole run.
-/

namespace Stencil.Session

open Reconcile

variable {s : Session} {t t' : Template}

/-! ## Commands -/

theorem ids_putTemplate (h : s.activeTemplate? = some t) (hid : t'.id = t.id) :
    (s.putTemplate t').library.ids = s.library.ids := by
  obtain ⟨id, hactive, ht⟩ := activeTemplate?_eq_some_iff.1 h
  have hnew : t'.id = id := hid.trans (Library.template?_eq_some ht).2
  rw [putTemplate, hactive]
  exact Library.ids_modifyTemplate fun _ _ _ => hnew

theorem ids_travel (h : s.activeTemplate? = some t)
    (move : History → Snapshot → Option (Snapshot × History)) :
    (s.travel move).2.library.ids = s.library.ids := by
  cases hmove : move s.history (.of t) with
  | none => rw [travel_of_none h hmove]
  | some found =>
    rw [travel_of_some h hmove]
    exact ids_putTemplate h rfl

/-- A command on the template that is edited keeps all templates under their ids. -/
theorem ids_perform (s : Session) (now : Int) (c : Command) :
    (s.perform now c).library.ids = s.library.ids := by
  cases ht : s.activeTemplate? with
  | none =>
    rcases perform_of_none ht now c with ⟨burst, hperform⟩ | ⟨language, rfl⟩
    · rw [hperform]
    · rfl
  | some t =>
    rcases perform_cases ht now c with
      ⟨kind, t', library, -, hid, htemplates, hperform⟩ | ⟨burst, hperform⟩ | ⟨language, rfl⟩ |
        rfl | rfl
    · have hactive := (activeTemplate?_of_templates htemplates).trans ht
      have hids : library.ids = s.library.ids := congrArg (List.map (·.id)) htemplates
      rw [hperform]
      exact (ids_putTemplate hactive hid).trans hids
    · rw [hperform]
    · rfl
    · exact ids_travel ht History.undo?
    · exact ids_travel ht History.redo?

/-! ## Acts -/

/-- What a user does. -/
inductive Act where
  /-- Give a command on templates. -/
  | onTemplates (c : TemplateCommand)
  /-- Give a command on banks. -/
  | onBanks (c : BankCommand)
  /-- Give a command on the template that is edited. -/
  | command (now : Int) (c : Command)
  /-- Edit another template. -/
  | activate (id : String)
  /-- Bring the library up to date with a release, which becomes the baseline. -/
  | applyRelease (release : Library)
  /-- Bring the library up to date with a release, under any settings and from any baseline. -/
  | reconcile (config : ReconcileConfig) (language : String) (baseline : Option Library)
    (release : Library)

/-- The release that is taken in. -/
def Act.release? : Act → Option Library
  | .applyRelease release | .reconcile _ _ _ release => some release
  | _ => none

/-- The session after an act. -/
def act (s : Session) : Act → Session
  | .onTemplates c => { s with library := s.library.performTemplate c }
  | .onBanks c => { s with library := s.library.performBank c }
  | .command now c => s.perform now c
  | .activate id => (Attempt.activate id).left s
  | .applyRelease release => (s.applyRelease release).2
  | .reconcile config language baseline release =>
    { s with library := (Stencil.reconcile config language s.library baseline release).library }

/-- Acts that follow one another. -/
def actAll (s : Session) (acts : List Act) : Session := acts.foldl act s

/-- Each act keeps ids distinct. -/
theorem nodup_ids_act (h : s.library.ids.Nodup) {a : Act}
    (hrelease : ∀ release, a.release? = some release → release.ids.Nodup) :
    (s.act a).library.ids.Nodup := by
  cases a with
  | onTemplates c =>
    rcases s.library.ids_performTemplate c with ⟨id, hnew, hids⟩ | hids
    · have hperm : (s.library.ids ++ [id]).Perm (id :: s.library.ids) :=
        List.perm_append_singleton _ _
      simp only [act]
      rw [hids, hperm.nodup_iff]
      exact List.nodup_cons.2 ⟨hnew, h⟩
    · exact h.sublist hids
  | onBanks c =>
    simp only [act]
    rwa [(s.library.bankStep_performBank c).ids_eq]
  | command now c =>
    simp only [act]
    rwa [ids_perform]
  | activate id =>
    simp only [act, Attempt.activate, Attempt.left_get_bind]
    split
    · exact h
    · split <;> exact h
  | applyRelease release => exact nodup_ids_reconcile _ _ _ h (hrelease release rfl)
  | reconcile config language baseline release =>
    exact nodup_ids_reconcile _ _ _ h (hrelease release rfl)

theorem nodup_ids_actAll {acts : List Act} (h : s.library.ids.Nodup)
    (hreleases : ∀ a ∈ acts, ∀ release, a.release? = some release → release.ids.Nodup) :
    (s.actAll acts).library.ids.Nodup := by
  induction acts generalizing s with
  | nil => exact h
  | cons a acts ih =>
    rw [List.forall_mem_cons] at hreleases
    exact ih (nodup_ids_act h hreleases.1) hreleases.2

/-- **Ids stay distinct.** Acts keep the ids of the templates distinct, if those of each release
are. A backup always finds an id within one more candidate than there are templates, so every
version that a reconciliation has to save is saved. -/
theorem ids_stay_distinct (s : Session) (acts : List Act) (h : s.library.ids.Nodup)
    (hreleases : ∀ a ∈ acts, ∀ release, a.release? = some release → release.ids.Nodup) :
    (s.actAll acts).library.ids.Nodup ∧
      (∀ config language m system, ¬ Saved config system m.templates →
        ∃ n, BackedUp config language system m (insertBackup config language m system) n) ∧
      ∀ config language user baseline release,
        ∀ system ∈ keptSystems user (importedBaseline config user baseline release)
            (importedRelease config user baseline release),
          Saved config system
            (Stencil.reconcile config language user baseline release).library.templates :=
  ⟨nodup_ids_actAll h hreleases, fun _ language _ _ hsaved => exists_backedUp language hsaved,
    fun config language user baseline release _ hsystem =>
      saved_reconcile config language user baseline release hsystem⟩

/-- The system changes an edited template twice, and the user has a template under the id that the
first backup would get. -/
theorem ids_stay_distinct_of_two_releases :
    let template (id content : String) : Template := { id, content := .plain content }
    let release (content : String) : Library := { templates := [template "t" content] }
    let s := start { templates := [template "t" "mine"] } {} none
    let acts : List Act :=
      [.onTemplates (.add (template "t_backup" "also mine")), .applyRelease (release "one"),
        .command 0 (.editContent "mine again" .typing), .applyRelease (release "two")]
    s.library.ids.Nodup ∧
      (∀ a ∈ acts, ∀ release, a.release? = some release → release.ids.Nodup) ∧
      (s.actAll acts).library.ids.Nodup ∧
      (s.actAll acts).library.ids = ["t", "t_backup3", "t_backup2", "t_backup"] := by
  intro template release s acts
  have hids : s.library.ids.Nodup := by decide +kernel
  have hreleases : ∀ a ∈ acts, ∀ release, a.release? = some release → release.ids.Nodup := by
    have hrelease (content : String) : (release content).ids.Nodup := List.nodup_singleton "t"
    simp [acts, Act.release?, hrelease]
  exact ⟨hids, hreleases, (ids_stay_distinct s acts hids hreleases).1, by decide +kernel⟩

end Stencil.Session
