import Stencil.Attempt
import Stencil.Library.Basic

/-!
# Commands on templates

Templates are added to a library, taken out of it, renamed and tagged. A command that cannot be
carried out says why, and the library stays as it is.
-/

namespace Stencil

/-- Why a command on templates cannot be carried out. -/
inductive TemplateError where
  /-- There is no template with the id. -/
  | notFound (id : String)
  /-- There is a template with the id. -/
  | idExists (id : String)
  /-- The id is blank. -/
  | emptyId
deriving DecidableEq

/-- What the user is told. -/
def TemplateError.message : TemplateError → String
  | notFound id => "template not found: " ++ id
  | idExists id => "template ID already exists: " ++ id
  | emptyId => "template ID must not be empty"

/-- The tags without the white space at their ends, and each of them once, blank ones left out. -/
def cleanTags (tags : List String) : List String :=
  tags.foldl
    (fun done tag =>
      let tag := Text.trim tag
      if tag = "" || done.contains tag then done else done ++ [tag])
    []

namespace Library

/-- Take the first template with an id out of a list. -/
def eraseFirst (id : String) (templates : List Template) : List Template :=
  templates.eraseP (·.id == id)

end Library

/-! ## Commands -/

namespace Attempt

open Library

/-- Add a template at the end. -/
def addTemplate (t : Template) : Attempt Library TemplateError Unit := do
  let l ← get
  if Text.isBlank t.id then throw .emptyId
  else if l.hasTemplate t.id then throw (.idExists t.id)
  else set { l with templates := l.templates ++ [t] }

/-- Take a template out. -/
def removeTemplate (id : String) : Attempt Library TemplateError Template := do
  let l ← get
  match l.template? id with
  | some t =>
    set { l with templates := eraseFirst id l.templates }
    return t
  | none => throw (.notFound id)

/-- Change the first template with an id. -/
def changeTemplate (id : String) (f : Template → Template) :
    Attempt Library TemplateError Unit := do
  let l ← get
  if l.hasTemplate id then set (l.modifyTemplate id f) else throw (.notFound id)

theorem run_changeTemplate_eq_ok_iff {l m : Library} {id : String} {f : Template → Template}
    {answer : Unit} :
    (changeTemplate id f).run l = .ok answer m ↔ l.hasTemplate id ∧ m = l.modifyTemplate id f := by
  rw [changeTemplate, run_get_bind, run_ite_throw_eq_ok_iff, EStateM.run_set,
    EStateM.Result.ok.injEq]
  exact and_congr_right fun _ => ⟨fun h => h.2.symm, fun h => ⟨rfl, h.symm⟩⟩

/-- Give a template another name. -/
def renameTemplate (id : String) (name : Localized) : Attempt Library TemplateError Unit :=
  changeTemplate id fun t => { t with name }

/-- Give a template other tags, each of them once, blank ones left out. -/
def setTags (id : String) (tags : List String) : Attempt Library TemplateError Unit :=
  changeTemplate id fun t => { t with tags := cleanTags tags }

end Attempt

/-! ## What comes of them -/

namespace Library

/-- The library after a template has been added. -/
def addTemplate (l : Library) (t : Template) : Except TemplateError Library :=
  (Attempt.addTemplate t).after l

/-- The template that has been taken out, and the library after that. -/
def removeTemplate (l : Library) (id : String) : Except TemplateError (Template × Library) :=
  (Attempt.removeTemplate id).answer l

/-- The library after a template has got another name. -/
def renameTemplate (l : Library) (id : String) (name : Localized) : Except TemplateError Library :=
  (Attempt.renameTemplate id name).after l

/-- The library after a template has got other tags. -/
def setTags (l : Library) (id : String) (tags : List String) : Except TemplateError Library :=
  (Attempt.setTags id tags).after l

/-- Give a template another content, if it is there. -/
def setContent? (l : Library) (id : String) (content : Localized) : Option Library :=
  if l.hasTemplate id then some (l.modifyTemplate id fun t => { t with content }) else none

end Library

end Stencil
