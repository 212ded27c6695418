import Stencil.Bank.Commands
import Stencil.Filling
import Stencil.History
import Stencil.Linkage
import Stencil.Placeholder.GroupEdit
import Stencil.Reconcile.Basic

/-!
# Sessions

A session edits one template of a library in one language. Edits can be undone and redone, linked
placeholders are kept at one value, and a new release of the system's library can be taken in.

* Reading: `contentText`, `parsed`, `resolve?`, `displayValue`, `render`;
* commands that fail without an active template: `Attempt.editContent`, `insertPlaceholder`,
  `assignGroup` and `removeGroup` on the content, `select` and `selectCustom` on the selections,
  each of which is an `Attempt.edit`; and `Attempt.activate`;
* history: `undo`, `redo`, `endTypingBurst`;
* the rest: `setLanguage`, `applyRelease`.

A command gets the time at which it is given, in nanoseconds.
-/

namespace Stencil

open Placeholder

/-- Why a session cannot carry out a command. -/
inductive SessionError where
  /-- The library has no template with the id. -/
  | templateNotFound (id : String)
  /-- No template is active. -/
  | noActiveTemplate
deriving DecidableEq

/-- What the user is told. -/
def SessionError.message : SessionError → String
  | templateNotFound id => "template not found: " ++ id
  | noActiveTemplate => "no active template"

/-- The state of a session. -/
structure Session where
  /-- The library that is edited. -/
  library : Library
  /-- The id of the template that is edited. -/
  active : Option String
  /-- The language that is edited and shown. -/
  language : String
  /-- The steps that can be undone and redone. -/
  history : History
  /-- The release that the library was last brought up to date with. -/
  baseline : Option Library
  /-- The settings. -/
  config : Config

namespace Session

/-- A session on the first template of a library. -/
def start (library : Library) (config : Config) (baseline : Option Library) : Session :=
  { library
    active := library.templates.head?.map (·.id)
    language := config.locale.language
    history := .new config.history
    baseline
    config }

/-! ## Reading -/

/-- The template that is edited. -/
def activeTemplate? (s : Session) : Option Template := s.active.bind s.library.template?

/-- The template that is edited, or why there is none. -/
def activeTemplate (s : Session) : Except SessionError Template :=
  match s.active with
  | none => .error .noActiveTemplate
  | some id =>
    match s.library.template? id with
    | some t => .ok t
    | none => .error (.templateNotFound id)

/-- The content that is edited, in the language of the session. -/
def contentText (s : Session) : String := s.activeTemplate?.elim "" (·.text s.language)

/-- The placeholders of the content. -/
def parsed (s : Session) : Parsed := .ofText s.contentText

/-- The string shown for an occurrence, if it has a value. -/
def resolve? (s : Session) (key base : String) : Option String :=
  s.activeTemplate?.bind fun t =>
    resolveOccurrence? t.selections s.library.defaults key base s.language

/-- The string shown for an occurrence: its value, or else the placeholder as it is written. -/
def displayValue (s : Session) (key base : String) : String :=
  match s.resolve? key base with
  | some value => value
  | none =>
    match s.parsed.find? key with
    | some t => t.text
    | none => String.ofList (Slot.text ⟨[], base.toList, []⟩)

/-- The content with its placeholders filled in. -/
def render (s : Session) : String :=
  match s.activeTemplate? with
  | some t => Stencil.render (t.text s.language) t.selections s.library.defaults s.language
  | none => ""

/-! ## Languages -/

/-- Edit and show another language. -/
def setLanguage (s : Session) (language : String) : Session :=
  { s with language, history := s.history.endBurst }

/-! ## Changes of the active template -/

/-- Put a template in the place of the active one, without a step in the history. -/
def putTemplate (s : Session) (t : Template) : Session :=
  { s with library := s.active.elim s.library fun id => s.library.modifyTemplate id fun _ => t }

/-- The template with another text in a language. -/
def withText (t : Template) (language text : String) : Template :=
  { t with content := t.content.withLanguage language text }

/-- A placeholder as it is inserted: with a space on each side. -/
def insertedText (key : String) : List Char :=
  ' ' :: Slot.text ⟨[], (Text.trim key).toList, []⟩ ++ [' ']

/-- The selections after a token has joined a group: it takes over the value of the group. -/
def syncJoined (selections : Selections) (e : GroupEdit) : Selections :=
  let p := Parsed.ofText e.text
  match e.group, p.find? e.key with
  | some group, some t => (selections.syncGroup p t.baseKey group (some e.key)).2
  | _, _ => selections

/-- The base key of an occurrence; for a key that addresses nothing, the one in the key itself. -/
def baseKeyOf? (s : Session) (key : String) : Option String :=
  match s.parsed.find? key with
  | some t => some t.baseKey
  | none => (splitOccurrenceKey? key).map (·.1)

end Session

/-! ## Commands -/

namespace Attempt

open Session

/-- Edit another template. The history does not carry over. -/
def activate (id : String) : Attempt Session SessionError Unit := do
  let s ← get
  if !s.library.hasTemplate id then throw (.templateNotFound id)
  else if s.active = some id then return ()
  else set { s with active := some id, history := s.history.reset }

/-- Change the active template, in the language of the session, and note a step if that makes a
difference. -/
def edit {α : Type} (now : Int) (kind : EditKind) (change : String → Template → α × Template) :
    Attempt Session SessionError α := do
  let s ← get
  let t ← s.activeTemplate
  let (answer, t') := change s.language t
  let history :=
    if Snapshot.of t ≈ Snapshot.of t' then s.history
    else (s.history.record (.of t) kind now).2
  set { s.putTemplate t' with history }
  return answer

/-- Put another text in the place of the content, with one value for each of its groups. -/
def editContent (now : Int) (text : String) (kind : EditKind) :
    Attempt Session SessionError Unit :=
  edit now kind fun language t =>
    ((), { withText t language text with selections := t.selections.syncAll (.ofText text) })

/-- Insert a placeholder at a cursor, or at the nearest boundary before it; the answer is the cursor
behind it. -/
def insertPlaceholder (now : Int) (cursor : Nat) (key : String) :
    Attempt Session SessionError Nat :=
  edit now .insertion fun language t =>
    let (before, after) := Text.cutAt cursor (t.text language).toList
    let inserted := insertedText key
    (Text.byteLength before + Text.byteLength inserted,
      withText t language (String.ofList (before ++ inserted ++ after)))

/-- Put the token under a cursor into a group; the answer is the cursor afterwards, and there is
none if the cursor is in no token. -/
def assignGroup (now : Int) (cursor group : Nat) : Attempt Session SessionError (Option Nat) := do
  let s ← get
  match assignGroup? s.contentText cursor group with
  | none => return none
  | some e =>
    edit now .grouping fun language t =>
      (some e.cursor,
        { withText t language e.text with selections := syncJoined t.selections e })

/-- Take the token under a cursor out of its group, with its value; the answer is the cursor
afterwards, and there is none if there is nothing to take out. -/
def removeGroup (now : Int) (cursor : Nat) : Attempt Session SessionError (Option Nat) := do
  let s ← get
  match removeGroup? s.contentText cursor with
  | none => return none
  | some e => edit now .grouping fun language t => (some e.cursor, withText t language e.text)

/-- Pick a value for an occurrence and all linked with it; the answer is their keys. -/
def select (now : Int) (key : String) (value : Localized) :
    Attempt Session SessionError (List String) :=
  edit now .selection fun language t =>
    let p := Parsed.ofText (t.text language)
    (p.linkedKeys key, { t with selections := t.selections.propagate p key value })

/-- Pick a value that the user typed; it is also added to the bank of the occurrence. -/
def selectCustom (now : Int) (key : String) (value : Localized) :
    Attempt Session SessionError (List String) := do
  let s ← get
  let _ ← s.activeTemplate
  let library := match s.baseKeyOf? key with
    | some base => (s.library.addCustomOption base value).2
    | none => s.library
  set { s with library }
  select now key value

end Attempt

namespace Session

/-! ## What comes of them -/

/-- The session after another template has become active. -/
def activate (s : Session) (id : String) : Except SessionError Session :=
  (Attempt.activate id).after s

/-- The session after an edit of the content. -/
def editContent (s : Session) (now : Int) (text : String) (kind : EditKind) :
    Except SessionError (Unit × Session) := (Attempt.editContent now text kind).answer s

/-- The cursor behind a placeholder that has been inserted, and the session after that. -/
def insertPlaceholder (s : Session) (now : Int) (cursor : Nat) (key : String) :
    Except SessionError (Nat × Session) := (Attempt.insertPlaceholder now cursor key).answer s

/-- The cursor after a token has joined a group, and the session after that. -/
def assignGroup (s : Session) (now : Int) (cursor group : Nat) :
    Except SessionError (Option Nat × Session) := (Attempt.assignGroup now cursor group).answer s

/-- The cursor after a token has left its group, and the session after that. -/
def removeGroup (s : Session) (now : Int) (cursor : Nat) :
    Except SessionError (Option Nat × Session) := (Attempt.removeGroup now cursor).answer s

/-- The keys that a value has been picked for, and the session after that. -/
def select (s : Session) (now : Int) (key : String) (value : Localized) :
    Except SessionError (List String × Session) := (Attempt.select now key value).answer s

/-- The keys that a typed value has been picked for, and the session after that. -/
def selectCustom (s : Session) (now : Int) (key : String) (value : Localized) :
    Except SessionError (List String × Session) := (Attempt.selectCustom now key value).answer s

/-! ## History -/

/-- Close the open burst of typing. -/
def endTypingBurst (s : Session) : Session := { s with history := s.history.endBurst }

/-- Restore a snapshot that the history has for the active template; the answer says whether there
was one. -/
def travel (s : Session) (move : History → Snapshot → Option (Snapshot × History)) :
    Bool × Session :=
  match s.activeTemplate? with
  | none => (false, s)
  | some t =>
    match move s.history (.of t) with
    | some (snapshot, history) => (true, { s.putTemplate (snapshot.restore t) with history })
    | none => (false, s)

/-- Undo a step; the answer says whether there was one. -/
def undo (s : Session) : Bool × Session := s.travel History.undo?

/-- Redo a step; the answer says whether there was one. -/
def redo (s : Session) : Bool × Session := s.travel History.redo?

/-! ## Releases -/

/-- Bring the library up to date with a release, which becomes the baseline; the answer is the
notes. If the active template is gone, the first one becomes active. -/
def applyRelease (s : Session) (release : Library) : List Reconcile.Note × Session :=
  let out := reconcile s.config.reconcile s.language s.library s.baseline release
  let active :=
    if s.active.any out.library.hasTemplate then s.active
    else out.library.templates.head?.map (·.id)
  (out.notes,
    { s with
      library := out.library
      baseline := some release
      active
      history := s.history.reset })

end Session

end Stencil
