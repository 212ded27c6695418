import Stencil.Config
import Stencil.Library.Basic
import Stencil.Reconcile.KeyPlan
import Stencil.Reconcile.Note

/-!
# Reconciled templates

What becomes of a template is decided by the user's copy, the copy of the last release and the copy
of the new one. A template that the user edited is kept, and the new version is saved beside it
under an id of its backup family.

* `TemplateVerdict.of` — what becomes of a template of the user;
* `addedTemplates` — templates that are new in a release;
* `insertBackup` — the new version of an edited template beside the user's copy.
-/

namespace Stencil.Reconcile

/-- What becomes of a template of the user. -/
inductive TemplateVerdict where
  /-- It is not a system template. -/
  | own
  /-- The user's copy has nothing that the system copy lacks. -/
  | adopted (system : Template)
  /-- The user did not edit the last version. -/
  | upgraded (system : Template)
  /-- The user edited it. -/
  | kept (system : Template)

namespace TemplateVerdict

/-- What becomes of a template of the user, given the copies of the last and the new release. -/
def of (own : Template) (prior system : Option Template) : TemplateVerdict :=
  match system with
  | none => .own
  | some system =>
    if own.isBlank || own.agreesWith system then .adopted system
    else if prior.any own.agreesWith then .upgraded system
    else .kept system

/-- The template that results. An edited one takes what it lacks, and its tags, from the system
copy. -/
def result (own : Template) : TemplateVerdict → Template
  | .own => own
  | adopted system => system
  | upgraded system => system
  | kept system => { own.fillAbsent system with tags := system.tags }

/-- The user did not edit the last version. -/
def isUpgraded : TemplateVerdict → Bool
  | upgraded _ => true
  | _ => false

/-- The system copy of a template that the user edited. -/
def kept? : TemplateVerdict → Option Template
  | kept system => some system
  | _ => none

end TemplateVerdict

/-- What becomes of each template of the user, beside the template itself. -/
def judgeTemplates (user : Library) (baseline : Option Library) (release : Library) :
    List (Template × TemplateVerdict) :=
  user.templates.map fun own =>
    (own, .of own (baseline.bind (·.template? own.id)) (release.template? own.id))

/-- The templates of a release that neither the user nor the last release has. -/
def addedTemplates (user : Library) (baseline : Option Library) (release : Library) :
    List Template :=
  release.templates.filter fun t =>
    !user.hasTemplate t.id && !baseline.any (·.hasTemplate t.id)

/-- Put a template behind the first one with an id, or else at the end. -/
def insertAfter (id : String) (new : Template) : List Template → List Template
  | [] => [new]
  | t :: ts => if t.id = id then t :: new :: ts else t :: insertAfter id new ts

/-- The first id of the backup family of an id. -/
def backupFamily (config : ReconcileConfig) (id : String) : String := id ++ config.backupSuffix

/-- A copy of a system template under another id and name. -/
def backupOf (config : ReconcileConfig) (system : Template) (id : String) : Template :=
  { system with id, name := system.name.withSuffix config.backupLabel }

/-- Templates and notes so far. -/
structure Merged where
  /-- The templates in order. -/
  templates : List Template
  /-- What the user is told. -/
  notes : List Note

/-- Save the new version of an edited template behind the user's copy, unless a template of its
backup family has the same body. -/
def insertBackup (config : ReconcileConfig) (language : String) (m : Merged) (system : Template) :
    Merged :=
  let family := backupFamily config system.id
  if m.templates.any fun t => inFamily t.id family && t.sameBody system then m
  else
    match firstFree? family (fun id => m.templates.any (·.id == id)) m.templates.length with
    | some id =>
      { templates := insertAfter system.id (backupOf config system id) m.templates
        notes := m.notes ++ [.backedUp (system.name.resolve language) system.id id] }
    | none => m

/-- The templates of a reconciled library, and what the user is told about them. -/
def mergeTemplates (config : ReconcileConfig) (language : String) (user : Library)
    (baseline : Option Library) (release : Library) : Merged :=
  let judged := judgeTemplates user baseline release
  let templates :=
    judged.map (fun (own, verdict) => verdict.result own) ++ addedTemplates user baseline release
  (judged.filterMap (·.2.kept?)).foldl (insertBackup config language) ⟨templates, []⟩

end Stencil.Reconcile
