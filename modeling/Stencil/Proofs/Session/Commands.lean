import Mathlib.Data.List.Induction
import Stencil.Proofs.History
import Stencil.Session

/-!
# Runs of commands

What a user does to one template: the commands on content, selections, history and language, given
one after another.

* `Session.Command`, `Session.perform`, `Session.run` — a command, what it makes of a session, and
  what many of them do;
* `Session.replace` — another template in the place of the active one, with a step in the history if
  that makes a difference: `run_edit` says that each change of the active template is one. Without
  an active template it fails and leaves the session as it is: `run_edit_of_none`;
* `Session.perform_cases` — all that a command can do;
* `Session.run_induction` — what each command keeps, a run keeps.
-/

namespace Stencil

open Placeholder

/-! ## The active template -/

namespace Library

/-- The template with an id depends on the templates only. -/
theorem template?_congr {l m : Library} (h : l.templates = m.templates) (id : String) :
    l.template? id = m.template? id := by
  rw [template?, h, template?]

@[simp] theorem templates_addCustomOption (l : Library) (key : String) (value : Localized) :
    (l.addCustomOption key value).2.templates = l.templates := by
  unfold addCustomOption
  split
  · rfl
  · split <;> rfl

theorem template?_modifyTemplate {l : Library} {id : String} {t : Template}
    (h : l.template? id = some t) {f : Template → Template} (hf : (f t).id = id) :
    (l.modifyTemplate id f).template? id = some (f t) := by
  rw [template?] at h
  change (modifyFirst id f l.templates).find? (·.id == id) = some (f t)
  generalize l.templates = ts at h ⊢
  induction ts with
  | nil => simp at h
  | cons u us ih =>
    rw [List.find?_cons] at h
    by_cases hid : u.id = id
    · obtain rfl : u = t := by simpa [hid] using h
      simp [modifyFirst, hid, hf]
    · have hne : (u.id == id) = false := by simp [hid]
      rw [hne] at h
      simp only [modifyFirst, if_neg hid, List.find?_cons, hne]
      exact ih h

end Library

namespace Session

variable {s : Session} {t t' : Template} {α : Type}

theorem activeTemplate?_eq_some_iff :
    s.activeTemplate? = some t ↔ ∃ id, s.active = some id ∧ s.library.template? id = some t := by
  simp [activeTemplate?, Option.bind_eq_some_iff]

theorem activeTemplate_eq (h : s.activeTemplate? = some t) : s.activeTemplate = .ok t := by
  obtain ⟨id, hactive, ht⟩ := activeTemplate?_eq_some_iff.1 h
  simp [activeTemplate, hactive, ht]

theorem exists_activeTemplate_eq_error (h : s.activeTemplate? = none) :
    ∃ e, s.activeTemplate = .error e := by
  unfold activeTemplate
  cases hactive : s.active with
  | none => exact ⟨_, rfl⟩
  | some id =>
    have hid : s.library.template? id = none := by simpa [activeTemplate?, hactive] using h
    exact ⟨.templateNotFound id, by simp [hid]⟩

/-- The active template depends on the templates of the library only. -/
theorem activeTemplate?_of_templates {library : Library}
    (h : library.templates = s.library.templates) :
    ({ s with library } : Session).activeTemplate? = s.activeTemplate? := by
  simp only [activeTemplate?, funext (Library.template?_congr h)]

theorem activeTemplate?_putTemplate (h : s.activeTemplate? = some t) (hid : t'.id = t.id) :
    (s.putTemplate t').activeTemplate? = some t' := by
  obtain ⟨id, hactive, ht⟩ := activeTemplate?_eq_some_iff.1 h
  have htid : t.id = id := by simpa using List.find?_some ht
  refine activeTemplate?_eq_some_iff.2 ⟨id, hactive, ?_⟩
  rw [putTemplate, hactive]
  exact Library.template?_modifyTemplate ht (hid.trans htid)

/-! ## Changes of the active template -/

/-- Put `t'` in the place of the active template `t`, and note a step if that makes a difference. -/
def replace (s : Session) (now : Int) (kind : EditKind) (t t' : Template) : Session :=
  { s.putTemplate t' with
    history :=
      if Snapshot.of t ≈ Snapshot.of t' then s.history
      else (s.history.record (.of t) kind now).2 }

theorem activeTemplate?_replace (h : s.activeTemplate? = some t) (hid : t'.id = t.id) (now : Int)
    (kind : EditKind) : (s.replace now kind t t').activeTemplate? = some t' :=
  activeTemplate?_putTemplate h hid

@[simp] theorem language_replace (s : Session) (now : Int) (kind : EditKind) (t t' : Template) :
    (s.replace now kind t t').language = s.language := rfl

section Edit

variable (now : Int) (kind : EditKind) (change : String → Template → α × Template)

theorem run_edit (h : s.activeTemplate? = some t) :
    (Attempt.edit now kind change).run s =
      .ok (change s.language t).1 (s.replace now kind t (change s.language t).2) := by
  rw [Attempt.edit, Attempt.run_get_bind, activeTemplate_eq h]
  rfl

theorem run_edit_of_none (h : s.activeTemplate? = none) :
    ∃ e, s.activeTemplate = .error e ∧ (Attempt.edit now kind change).run s = .error e s := by
  obtain ⟨e, he⟩ := exists_activeTemplate_eq_error h
  refine ⟨e, he, ?_⟩
  rw [Attempt.edit, Attempt.run_get_bind, he]
  rfl

theorem left_edit (h : s.activeTemplate? = some t) :
    (Attempt.edit now kind change).left s = s.replace now kind t (change s.language t).2 :=
  Attempt.left_of_run (run_edit now kind change h)

theorem answer_edit (h : s.activeTemplate? = some t) :
    (Attempt.edit now kind change).answer s =
      .ok ((change s.language t).1, s.replace now kind t (change s.language t).2) :=
  Attempt.answer_eq_ok_iff.2 (run_edit now kind change h)

theorem left_edit_of_none (h : s.activeTemplate? = none) :
    (Attempt.edit now kind change).left s = s := by
  obtain ⟨e, -, hrun⟩ := run_edit_of_none now kind change h
  exact Attempt.left_of_run_error hrun

end Edit

section Custom

variable (now : Int) (key : String) (value : Localized)

/-- Picking a value that was typed is picking it, in a library whose templates are the same. -/
theorem run_selectCustom (h : s.activeTemplate? = some t) :
    ∃ library : Library, library.templates = s.library.templates ∧
      (Attempt.selectCustom now key value).run s =
        (Attempt.select now key value).run { s with library } := by
  rw [Attempt.selectCustom, Attempt.run_get_bind, activeTemplate_eq h]
  cases hbase : s.baseKeyOf? key with
  | none => exact ⟨s.library, rfl, rfl⟩
  | some base => exact ⟨_, s.library.templates_addCustomOption base value, rfl⟩

/-- Without an active template, no bank is changed either. -/
theorem run_selectCustom_of_none (h : s.activeTemplate? = none) :
    ∃ e, s.activeTemplate = .error e ∧
      (Attempt.selectCustom now key value).run s = .error e s := by
  obtain ⟨e, he⟩ := exists_activeTemplate_eq_error h
  refine ⟨e, he, ?_⟩
  rw [Attempt.selectCustom, Attempt.run_get_bind, he]
  rfl

end Custom

/-! ## Restored snapshots -/

section Travel

variable {move : History → Snapshot → Option (Snapshot × History)} {x : Snapshot} {h : History}

theorem travel_of_some (ht : s.activeTemplate? = some t)
    (hmove : move s.history (.of t) = some (x, h)) :
    s.travel move = (true, { s.putTemplate (x.restore t) with history := h }) := by
  rw [travel, ht]
  simp only [hmove]

theorem travel_of_none (ht : s.activeTemplate? = some t) (hmove : move s.history (.of t) = none) :
    s.travel move = (false, s) := by
  rw [travel, ht]
  simp only [hmove]

theorem activeTemplate?_restore (ht : s.activeTemplate? = some t) (x : Snapshot) (h : History) :
    ({ s.putTemplate (x.restore t) with history := h } : Session).activeTemplate? =
      some (x.restore t) := activeTemplate?_putTemplate ht rfl

theorem isSome_activeTemplate?_travel (ht : s.activeTemplate? = some t) :
    (s.travel move).2.activeTemplate?.isSome := by
  cases hmove : move s.history (.of t) with
  | none =>
    rw [travel_of_none ht hmove, ht]
    rfl
  | some found =>
    rw [travel_of_some ht hmove, activeTemplate?_restore ht]
    rfl

end Travel

/-! ## Commands -/

/-- What a user does to the template that is edited. -/
inductive Command where
  /-- Put another text in the place of the content. -/
  | editContent (text : String) (kind : EditKind)
  /-- Insert a placeholder at a cursor. -/
  | insertPlaceholder (cursor : Nat) (key : String)
  /-- Put the token under a cursor into a group. -/
  | assignGroup (cursor group : Nat)
  /-- Take the token under a cursor out of its group. -/
  | removeGroup (cursor : Nat)
  /-- Pick a value. -/
  | select (key : String) (value : Localized)
  /-- Pick a value that was typed. -/
  | selectCustom (key : String) (value : Localized)
  /-- Close the open burst of typing. -/
  | endTypingBurst
  /-- Edit and show another language. -/
  | setLanguage (language : String)
  /-- Undo a step. -/
  | undo
  /-- Redo a step. -/
  | redo

/-- What a command makes of a session. -/
def perform (s : Session) (now : Int) : Command → Session
  | .editContent text kind => (Attempt.editContent now text kind).left s
  | .insertPlaceholder cursor key => (Attempt.insertPlaceholder now cursor key).left s
  | .assignGroup cursor group => (Attempt.assignGroup now cursor group).left s
  | .removeGroup cursor => (Attempt.removeGroup now cursor).left s
  | .select key value => (Attempt.select now key value).left s
  | .selectCustom key value => (Attempt.selectCustom now key value).left s
  | .endTypingBurst => s.endTypingBurst
  | .setLanguage language => s.setLanguage language
  | .undo => s.undo.2
  | .redo => s.redo.2

/-- Commands that are given one after another, each at its time. -/
def run (s : Session) (commands : List (Int × Command)) : Session :=
  commands.foldl (fun s c => s.perform c.1 c.2) s

@[simp] theorem run_nil (s : Session) : s.run [] = s := rfl

@[simp] theorem run_concat (s : Session) (commands : List (Int × Command)) (now : Int)
    (c : Command) : s.run (commands ++ [(now, c)]) = (s.run commands).perform now c := by
  simp [run, List.foldl_append]

/-- What holds at the beginning of a run and is kept by each of its commands holds at its end. -/
theorem run_induction {motive : Session → Prop} {commands : List (Int × Command)}
    (hstart : motive s)
    (hstep : ∀ before now c, before ++ [(now, c)] <+: commands → motive (s.run before) →
      motive ((s.run before).perform now c)) : motive (s.run commands) := by
  induction commands using List.reverseRecOn with
  | nil => exact hstart
  | append_singleton commands c ih =>
    obtain ⟨now, c⟩ := c
    have hrun : motive (s.run commands) := ih fun before now c hpre =>
      hstep before now c (hpre.trans (List.prefix_append _ _))
    rw [run_concat]
    exact hstep commands now c (List.prefix_refl _) hrun

/-- What a command notes a step as, if it is one on content or selections. -/
def Command.kind? : Command → Option EditKind
  | .editContent _ kind => some kind
  | .insertPlaceholder _ _ => some .insertion
  | .assignGroup _ _ | .removeGroup _ => some .grouping
  | .select _ _ | .selectCustom _ _ => some .selection
  | .endTypingBurst | .setLanguage _ | .undo | .redo => none

/-! ## What a command can do -/

section Grouping

variable {now : Int} {cursor group : Nat}

theorem perform_assignGroup_of_none (h : assignGroup? s.contentText cursor group = none) :
    s.perform now (.assignGroup cursor group) = s := by
  rw [perform, Attempt.assignGroup, Attempt.left_get_bind, h]
  rfl

theorem perform_removeGroup_of_none (h : removeGroup? s.contentText cursor = none) :
    s.perform now (.removeGroup cursor) = s := by
  rw [perform, Attempt.removeGroup, Attempt.left_get_bind, h]
  rfl

end Grouping

/-- **A command on content or selections changes the active template, or nothing at all.** The other
commands close the burst, change the language or move in the history. -/
theorem perform_cases (h : s.activeTemplate? = some t) (now : Int) (c : Command) :
    (∃ kind t' library, c.kind? = some kind ∧ t'.id = t.id ∧
        Library.templates library = s.library.templates ∧
        s.perform now c = { s with library }.replace now kind t t') ∨
      (∃ burst, s.perform now c = { s with history := { s.history with burst } }) ∨
      (∃ language, c = .setLanguage language) ∨ c = .undo ∨ c = .redo := by
  have hedit {α : Type} {c : Command} {kind : EditKind} {change : String → Template → α × Template}
      (hperform : s.perform now c = (Attempt.edit now kind change).left s)
      (hkind : c.kind? = some kind) (hid : (change s.language t).2.id = t.id) :
      ∃ kind t' library, c.kind? = some kind ∧ t'.id = t.id ∧
        Library.templates library = s.library.templates ∧
        s.perform now c = { s with library }.replace now kind t t' :=
    ⟨kind, _, s.library, hkind, hid, rfl, hperform.trans (left_edit now kind change h)⟩
  cases c with
  | editContent text kind => exact .inl (hedit rfl rfl rfl)
  | insertPlaceholder cursor key => exact .inl (hedit rfl rfl rfl)
  | assignGroup cursor group =>
    cases he : assignGroup? s.contentText cursor group with
    | none => exact .inr (.inl ⟨s.history.burst, perform_assignGroup_of_none he⟩)
    | some e =>
      exact .inl (hedit (by rw [perform, Attempt.assignGroup, Attempt.left_get_bind, he]) rfl rfl)
  | removeGroup cursor =>
    cases he : removeGroup? s.contentText cursor with
    | none => exact .inr (.inl ⟨s.history.burst, perform_removeGroup_of_none he⟩)
    | some e =>
      exact .inl (hedit (by rw [perform, Attempt.removeGroup, Attempt.left_get_bind, he]) rfl rfl)
  | select key value => exact .inl (hedit rfl rfl rfl)
  | selectCustom key value =>
    obtain ⟨library, htemplates, hrun⟩ := run_selectCustom now key value h
    have hactive := (activeTemplate?_of_templates htemplates).trans h
    rw [Attempt.select, run_edit now _ _ hactive] at hrun
    exact .inl ⟨.selection, _, library, rfl, by rfl, htemplates, Attempt.left_of_run hrun⟩
  | endTypingBurst => exact .inr (.inl ⟨none, rfl⟩)
  | setLanguage language => exact .inr (.inr (.inl ⟨language, rfl⟩))
  | undo => exact .inr (.inr (.inr (.inl rfl)))
  | redo => exact .inr (.inr (.inr (.inr rfl)))

/-- Without an active template, a command does no more than close the burst or change the
language. -/
theorem perform_of_none (h : s.activeTemplate? = none) (now : Int) (c : Command) :
    (∃ burst, s.perform now c = { s with history := { s.history with burst } }) ∨
      ∃ language, c = .setLanguage language := by
  have hsame {s' : Session} (hs' : s' = s) :
      ∃ burst, s' = { s with history := { s.history with burst } } := ⟨s.history.burst, hs'⟩
  have htravel (move : History → Snapshot → Option (Snapshot × History)) :
      s.travel move = (false, s) := by
    rw [travel, h]
  cases c with
  | editContent text kind => exact .inl (hsame (left_edit_of_none now kind _ h))
  | insertPlaceholder cursor key => exact .inl (hsame (left_edit_of_none now .insertion _ h))
  | assignGroup cursor group =>
    refine .inl (hsame ?_)
    cases he : assignGroup? s.contentText cursor group with
    | none => exact perform_assignGroup_of_none he
    | some e =>
      rw [perform, Attempt.assignGroup, Attempt.left_get_bind, he]
      exact left_edit_of_none now .grouping _ h
  | removeGroup cursor =>
    refine .inl (hsame ?_)
    cases he : removeGroup? s.contentText cursor with
    | none => exact perform_removeGroup_of_none he
    | some e =>
      rw [perform, Attempt.removeGroup, Attempt.left_get_bind, he]
      exact left_edit_of_none now .grouping _ h
  | select key value => exact .inl (hsame (left_edit_of_none now .selection _ h))
  | selectCustom key value =>
    obtain ⟨e, -, hrun⟩ := run_selectCustom_of_none now key value h
    exact .inl (hsame (Attempt.left_of_run_error hrun))
  | endTypingBurst => exact .inl ⟨none, rfl⟩
  | setLanguage language => exact .inr ⟨language, rfl⟩
  | undo => exact .inl (hsame (congrArg Prod.snd (htravel History.undo?)))
  | redo => exact .inl (hsame (congrArg Prod.snd (htravel History.redo?)))

theorem isSome_activeTemplate?_perform (s : Session) (now : Int) (c : Command) :
    (s.perform now c).activeTemplate?.isSome = s.activeTemplate?.isSome := by
  cases ht : s.activeTemplate? with
  | none =>
    rcases perform_of_none ht now c with ⟨burst, hperform⟩ | ⟨language, rfl⟩
    · rw [hperform, ← ht]
      rfl
    · rw [← ht]
      rfl
  | some t =>
    rcases perform_cases ht now c with
      ⟨kind, t', library, -, hid, htemplates, hperform⟩ | ⟨burst, hperform⟩ | ⟨language, rfl⟩ |
        rfl | rfl
    · have hactive := (activeTemplate?_of_templates htemplates).trans ht
      rw [hperform, activeTemplate?_replace hactive hid]
      rfl
    · rw [hperform, ← ht]
      rfl
    · rw [← ht]
      rfl
    · rw [perform, undo, isSome_activeTemplate?_travel ht]
      rfl
    · rw [perform, redo, isSome_activeTemplate?_travel ht]
      rfl

theorem isSome_activeTemplate?_run (s : Session) (commands : List (Int × Command)) :
    (s.run commands).activeTemplate?.isSome = s.activeTemplate?.isSome := by
  refine run_induction (motive := fun s' => s'.activeTemplate?.isSome = s.activeTemplate?.isSome)
    rfl ?_
  intro before now c _ hbefore
  rw [isSome_activeTemplate?_perform, hbefore]

end Session

end Stencil
