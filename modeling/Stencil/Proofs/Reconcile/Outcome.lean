import Stencil.Proofs.Reconcile.KeyPlan
import Stencil.Reconcile.Basic

/-!
# What a reconciliation gives

A reconciliation plans which keys get another name, renames them in both releases, and merges part
by part.

* `importedRelease`, `importedBaseline` — the releases that are merged;
* `templates_reconcile`, `banks_reconcile`, `notes_reconcile` and so on — the parts of the outcome.
-/

namespace Stencil.Reconcile

/-- The release with its keys renamed as planned. -/
def importedRelease (config : ReconcileConfig) (user : Library) (baseline : Option Library)
    (release : Library) : Library :=
  release.renameKeys (bankPlan config user baseline release)

/-- The last release with its keys renamed as planned for the new one. -/
def importedBaseline (config : ReconcileConfig) (user : Library) (baseline : Option Library)
    (release : Library) : Option Library :=
  baseline.map (Library.renameKeys (bankPlan config user baseline release))

variable (config : ReconcileConfig) (language : String) (user : Library)
  (baseline : Option Library) (release : Library)

theorem templates_reconcile :
    (reconcile config language user baseline release).library.templates =
      (mergeTemplates config language user (importedBaseline config user baseline release)
        (importedRelease config user baseline release)).templates := rfl

theorem banks_reconcile :
    (reconcile config language user baseline release).library.banks =
      mergeBanks user (importedBaseline config user baseline release)
        (importedRelease config user baseline release) := rfl

theorem defaults_reconcile :
    (reconcile config language user baseline release).library.defaults =
      mergeDefaults user (importedBaseline config user baseline release)
        (importedRelease config user baseline release) := rfl

theorem categories_reconcile :
    (reconcile config language user baseline release).library.categories =
      mergeCategories user (importedRelease config user baseline release) := rfl

theorem notes_reconcile :
    (reconcile config language user baseline release).notes =
      renameNotes user (bankPlan config user baseline release) ++
        (mergeTemplates config language user (importedBaseline config user baseline release)
          (importedRelease config user baseline release)).notes ++
        bankNotes user (importedBaseline config user baseline release)
          (importedRelease config user baseline release) := rfl

theorem backupsCreated_reconcile :
    (reconcile config language user baseline release).summary.backupsCreated =
      (mergeTemplates config language user (importedBaseline config user baseline release)
        (importedRelease config user baseline release)).notes.length := rfl

end Stencil.Reconcile
