import Stencil.Reconcile.Banks
import Stencil.Reconcile.KeyPlan
import Stencil.Reconcile.Templates

/-!
# Reconciliation with a release

The library of a user is brought up to date with a new release of the system's library. The release
that it was last brought up to date with, the *baseline*, tells what the user has edited. Conflicts
are resolved in favour of the user and noted.

* `reconcile` — the new library, the notes, and a summary of what was done.
-/

namespace Stencil

namespace Reconcile

/-- The defaults of a reconciled library. A default of the system is taken where the user has none
and had none to delete, has a blank one, or has the one of the last release. -/
def mergeDefaults (user : Library) (baseline : Option Library) (release : Library) : Defaults :=
  let taken := release.defaults.filter fun key _ =>
    let prior := baseline.bind (·.defaults.get? key)
    match user.defaults.get? key with
    | none => prior.isNone
    | some current => current.isBlank || prior.any fun p => decide (p ≈ current)
  user.defaults.insertAll taken.entries

/-- The categories of a reconciled library: those of the user, and those that only the system
has. -/
def mergeCategories (user release : Library) : OrderedMap Category :=
  user.categories.insertAll
    (release.categories.filter fun key _ => !user.categories.contains key).entries

/-- What was done, in numbers. -/
structure Summary where
  /-- Templates that the user had not edited and that have a new version. -/
  templatesUpgraded : Nat
  /-- New templates. -/
  templatesAdded : Nat
  /-- Templates that the user had edited. -/
  templatesKept : Nat
  /-- New versions saved beside edited templates. -/
  backupsCreated : Nat
  /-- Banks that the user had not edited and that have a new version. -/
  banksUpgraded : Nat
  /-- Banks that the user had edited. -/
  banksMerged : Nat
  /-- New banks. -/
  banksAdded : Nat
  /-- Bank keys of the release that got another name. -/
  keysRenamed : Nat
deriving DecidableEq

/-- What a reconciliation gives. -/
structure Outcome where
  /-- The new library. -/
  library : Library
  /-- The conflicts: renamed keys, then templates, then banks. -/
  notes : List Note
  /-- What was done, in numbers. -/
  summary : Summary

/-- The notes on planned renames; one to a key that the user has a bank under was noted before. -/
def renameNotes (user : Library) (plan : Placeholder.Renames) : List Note :=
  (plan.filter fun r => !user.banks.contains r.2).map fun r => .keyRenamed r.1 r.2

end Reconcile

open Reconcile in
/-- Bring the library of a user up to date with a release. -/
def reconcile (config : ReconcileConfig) (language : String) (user : Library)
    (baseline : Option Library) (release : Library) : Outcome :=
  let plan := planRenames user baseline release (renameSuffix config)
  let system := release.renameKeys plan
  let prior := baseline.map (Library.renameKeys plan)
  let judgedTemplates := judgeTemplates user prior system
  let judgedBanks := judgeBanks user prior system
  let templates := mergeTemplates config language user prior system
  { library :=
      { templates := templates.templates
        banks := mergeBanks user prior system
        defaults := mergeDefaults user prior system
        categories := mergeCategories user system }
    notes := renameNotes user plan ++ templates.notes ++ bankNotes user prior system
    summary :=
      { templatesUpgraded := judgedTemplates.countP (·.2.isUpgraded)
        templatesAdded := (addedTemplates user prior system).length
        templatesKept := judgedTemplates.countP (·.2.kept?.isSome)
        backupsCreated := templates.notes.length
        banksUpgraded := judgedBanks.values.countP (·.2.isUpgraded)
        banksMerged := judgedBanks.values.countP (·.2.isMerged)
        banksAdded := (addedBanks user prior system).size
        keysRenamed := plan.length } }

end Stencil
