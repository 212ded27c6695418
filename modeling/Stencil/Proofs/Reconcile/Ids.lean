import Stencil.Proofs.Reconcile.Templates

/-!
# Ids of reconciled templates

The ids of a reconciled library come from the user, from the release and from backups. Where each of
the first two has distinct ids, so has the result.

* `nodup_ids_insertBackup` — a backup gets an id that no template has;
* `nodup_ids_reconcile` — the whole library.
-/

namespace Stencil.Reconcile

variable {config : ReconcileConfig} {language : String} {user release : Library}
  {baseline : Option Library}

/-- Renaming keys keeps the ids of the templates. -/
theorem map_id_renameKeys (plan : Placeholder.Renames) (l : Library) :
    (l.renameKeys plan).templates.map (·.id) = l.templates.map (·.id) := by
  unfold Library.renameKeys
  split
  · rfl
  · simp [Function.comp_def]

/-- A merge before backups are saved gives each id at most once. -/
theorem nodup_ids_baseTemplates (huser : (user.templates.map (·.id)).Nodup)
    (hrelease : (release.templates.map (·.id)).Nodup) :
    ((baseTemplates user baseline release).map (·.id)).Nodup := by
  have hjudged : ((judgeTemplates user baseline release).map fun e => e.2.result e.1).map
      (·.id) = user.templates.map (·.id) := by
    simp only [judgeTemplates, List.map_map, Function.comp_def, id_result]
  rw [baseTemplates, List.map_append, hjudged, List.nodup_append]
  refine ⟨huser, hrelease.sublist (List.filter_sublist.map _), ?_⟩
  intro id hid id' hid' heq
  obtain ⟨own, hown, rfl⟩ := List.mem_map.1 hid
  obtain ⟨t, ht, rfl⟩ := List.mem_map.1 hid'
  exact (mem_addedTemplates.1 ht).2.1 (heq ▸ Library.hasTemplate_id hown)

/-- One more backup keeps ids distinct. -/
theorem nodup_ids_insertBackup {m : Merged} (h : (m.templates.map (·.id)).Nodup)
    (system : Template) :
    ((insertBackup config language m system).templates.map (·.id)).Nodup := by
  rcases insertBackup_cases config language m system with
    ⟨-, heq⟩ | ⟨id, pre, post, -, hfree, hsplit, heq⟩
  · rwa [heq]
  · have hperm : ((pre ++ backupOf config system id :: post).map (·.id)).Perm
        (id :: (pre ++ post).map (·.id)) := List.perm_middle.map _
    rw [heq, hperm.nodup_iff, List.nodup_cons, ← hsplit]
    refine ⟨?_, h⟩
    simpa using hfree

theorem nodup_ids_foldl_insertBackup {m : Merged} (h : (m.templates.map (·.id)).Nodup)
    (systems : List Template) :
    ((systems.foldl (insertBackup config language) m).templates.map (·.id)).Nodup := by
  induction systems generalizing m with
  | nil => exact h
  | cons system systems ih => exact ih (nodup_ids_insertBackup h system)

/-- A reconciliation keeps ids distinct, if those of the release are. -/
theorem nodup_ids_reconcile (config : ReconcileConfig) (language : String)
    (baseline : Option Library) (huser : (user.templates.map (·.id)).Nodup)
    (hrelease : (release.templates.map (·.id)).Nodup) :
    ((reconcile config language user baseline release).library.templates.map (·.id)).Nodup := by
  have himported : ((importedRelease config user baseline release).templates.map (·.id)).Nodup := by
    rwa [importedRelease, map_id_renameKeys]
  rw [templates_reconcile, mergeTemplates_eq]
  exact nodup_ids_foldl_insertBackup (nodup_ids_baseTemplates huser himported) _

/-- The system's version of each edited template is saved. -/
theorem saved_reconcile (config : ReconcileConfig) (language : String) (user : Library)
    (baseline : Option Library) (release : Library) {system : Template}
    (h : system ∈ keptSystems user (importedBaseline config user baseline release)
      (importedRelease config user baseline release)) :
    Saved config system (reconcile config language user baseline release).library.templates := by
  rw [templates_reconcile, mergeTemplates_eq]
  exact saved_foldl_insertBackup _ h

end Stencil.Reconcile
