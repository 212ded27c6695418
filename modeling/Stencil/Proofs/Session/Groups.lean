import Stencil.Proofs.Session.GroupCommands

/-!
# Groups in step over a session

A session shows groups in step when linked tokens of the shown text have alike selections.

* `Session.Loose` — the commands that need not leave groups in step: inserting a placeholder, which
  may be one more member of a group; taking a token out of a group when the rest of its name is read
  as something else; and leaving the content of a language empty, so that another language is shown;
* `Session.Consistent` — groups are in step now and in every snapshot of the history;
* `Session.inStep_perform` — every other command keeps groups in step;
* `Session.groups_in_step_iff` — a run keeps groups in step if and only if its loose commands do;
* `Session.groups_not_always_in_step` — each of them may fail to.
-/

namespace Stencil

open Placeholder

/-! ## Groups of a session -/

/-- The groups of the text in a language are in step with the selections. -/
def Snapshot.InStep (x : Snapshot) (language : String) : Prop :=
  x.selections.InStep (.ofText (x.content.resolve language))

namespace Session

/-- Linked tokens of the shown text have alike selections, or none. -/
def InStep (s : Session) : Prop := s.selections.InStep s.parsed

instance (s : Session) : Decidable s.InStep :=
  inferInstanceAs (Decidable (s.selections.InStep s.parsed))

/-- A command need not leave groups in step. -/
def Loose (s : Session) : Command → Prop
  | .insertPlaceholder _ _ => True
  | .removeGroup cursor => ∃ t, s.parsed.tokenAt? cursor = some t ∧ t.group? ≠ none ∧
      Name.split (Text.trim t.baseKey) ≠ ⟨t.baseKey, none⟩
  | .editContent text _ =>
    text = "" ∧ ∃ t m, s.activeTemplate? = some t ∧ t.content = .localized m
  | _ => False

variable {s : Session} {t t' : Template} {now : Int} {c : Command}

theorem inStep_iff (h : s.activeTemplate? = some t) :
    s.InStep ↔ (Snapshot.of t).InStep s.language := by
  rw [InStep, selections, parsed, contentText, h]
  rfl

theorem inStep_of_none (h : s.activeTemplate? = none) : s.InStep := by
  rw [InStep, selections, parsed, contentText, h]
  intro t ht
  exact absurd rfl (Parsed.ne_empty_of_mem ht)

/-- Groups are in step after a change if they are in what the change makes of the template. -/
theorem inStep_edit {α : Type} {change : String → Template → α × Template} {kind : EditKind}
    (h : s.activeTemplate? = some t) (hid : (change s.language t).2.id = t.id)
    (hafter : (Snapshot.of (change s.language t).2).InStep s.language) :
    ((Attempt.edit now kind change).left s).InStep := by
  rw [left_edit now kind change h]
  exact (inStep_iff (activeTemplate?_replace h hid now kind)).2 hafter

/-- Groups are in step, also in every snapshot that can be gone back or forward to. -/
structure Consistent (s : Session) : Prop where
  current : s.InStep
  past : ∀ x ∈ s.history.past, x.InStep s.language
  future : ∀ x ∈ s.history.future, x.InStep s.language

/-! ## Commands that keep groups in step -/

theorem inStep_editContent (h : s.activeTemplate? = some t) {text : String} (kind : EditKind)
    (htight : ¬ s.Loose (.editContent text kind)) :
    (s.perform now (.editContent text kind)).InStep := by
  have htext : text ≠ "" ∨ ∃ u, t.content = .plain u := by
    cases hcontent : t.content with
    | plain u => exact .inr ⟨u, rfl⟩
    | localized m => exact .inl fun hempty => htight ⟨hempty, t, m, h, hcontent⟩
  refine inStep_edit h rfl ?_
  change (t.selections.syncAll (.ofText text)).InStep
    (.ofText ((t.content.withLanguage s.language text).resolve s.language))
  rw [Localized.resolve_withLanguage t.content htext]
  exact t.selections.inStep_syncAll text

theorem Rewrites.inStep_iff {s' : Session} {text : String} {selections : Selections}
    (h : s.Rewrites s' text selections) : s'.InStep ↔ selections.InStep (.ofText text) := by
  rw [InStep, h.selections, h.parsed]

theorem inStep_assignGroup (hs : s.InStep) (cursor group : Nat) :
    (s.perform now (.assignGroup cursor group)).InStep := by
  cases hu : s.parsed.tokenAt? cursor with
  | none =>
    have he : assignGroup? s.contentText cursor group = none := by
      rw [assignGroup?, show (Parsed.ofText s.contentText).tokenAt? cursor = none from hu]
      rfl
    rw [perform_assignGroup_of_none he]
    exact hs
  | some u =>
    obtain ⟨s', hcommand, hafter⟩ := exists_assignGroup hu now group
    rw [perform, Attempt.left_of_answer hcommand, hafter.inStep_iff]
    exact Selections.InStep.syncGroup_regroup hs (Parsed.mem_of_tokenAt? hu)
      (Text.isNumeral_decimal group) _

theorem inStep_removeGroup (hs : s.InStep) {cursor : Nat}
    (htight : ¬ s.Loose (.removeGroup cursor)) : (s.perform now (.removeGroup cursor)).InStep := by
  cases he : removeGroup? s.contentText cursor with
  | none =>
    rw [perform_removeGroup_of_none he]
    exact hs
  | some e =>
    obtain ⟨u, hcursor, hgroup, rfl⟩ := removeGroup?_eq_some he
    have hread : Name.split (Text.trim u.baseKey) = ⟨u.baseKey, none⟩ :=
      Decidable.byContradiction fun hread => htight ⟨u, hcursor, hgroup, hread⟩
    obtain ⟨s', hcommand, hafter⟩ := exists_removeGroup hcursor hgroup now
    rw [perform, Attempt.left_of_answer hcommand, hafter.inStep_iff]
    exact Selections.InStep.regroup_none hs (Parsed.mem_of_tokenAt? hcursor) hread

theorem inStep_select (hs : s.InStep) (h : s.activeTemplate? = some t) (key : String)
    (value : Localized) : (s.perform now (.select key value)).InStep := by
  refine inStep_edit h rfl ?_
  rw [inStep_iff h] at hs
  exact Selections.InStep.propagate hs key value

theorem inStep_selectCustom (hs : s.InStep) (h : s.activeTemplate? = some t) (key : String)
    (value : Localized) : (s.perform now (.selectCustom key value)).InStep := by
  obtain ⟨library, htemplates, hrun⟩ := run_selectCustom now key value h
  have hactive := (activeTemplate?_of_templates htemplates).trans h
  rw [perform, Attempt.left_congr hrun]
  exact inStep_select ((inStep_iff hactive).2 ((inStep_iff h).1 hs)) hactive key value

/-- A move in the history keeps groups in step if it brings up no other snapshots. -/
theorem Consistent.travel (hs : s.Consistent) (h : s.activeTemplate? = some t)
    {move : History → Snapshot → Option (Snapshot × History)}
    (hmove : ∀ x h', move s.history (.of t) = some (x, h') →
      ∀ y, y = x ∨ y ∈ h'.past ∨ y ∈ h'.future →
        y = .of t ∨ y ∈ s.history.past ∨ y ∈ s.history.future) :
    (s.travel move).2.Consistent := by
  cases hfound : move s.history (.of t) with
  | none =>
    rw [travel_of_none h hfound]
    exact hs
  | some found =>
    obtain ⟨x, h'⟩ := found
    have hstep (y : Snapshot) (hy : y = x ∨ y ∈ h'.past ∨ y ∈ h'.future) :
        y.InStep s.language := by
      rcases hmove x h' hfound y hy with rfl | hpast | hfuture
      · exact (inStep_iff h).1 hs.current
      · exact hs.past y hpast
      · exact hs.future y hfuture
    rw [travel_of_some h hfound]
    refine ⟨?_, fun y hy => hstep y (.inr (.inl hy)), fun y hy => hstep y (.inr (.inr hy))⟩
    rw [inStep_iff (activeTemplate?_restore h x h')]
    exact hstep x (.inl rfl)

theorem Consistent.undo (hs : s.Consistent) (h : s.activeTemplate? = some t) :
    s.undo.2.Consistent := by
  refine hs.travel h fun x h' hundo y hy => ?_
  obtain ⟨hpast, hfuture⟩ := History.undo?_eq_some hundo
  rw [hfuture, List.mem_cons] at hy
  rw [hpast, List.mem_cons]
  rcases hy with rfl | hy | rfl | hy
  · exact .inr (.inl (.inl rfl))
  · exact .inr (.inl (.inr hy))
  · exact .inl rfl
  · exact .inr (.inr hy)

theorem Consistent.redo (hs : s.Consistent) (h : s.activeTemplate? = some t) :
    s.redo.2.Consistent := by
  refine hs.travel h fun x h' hredo y hy => ?_
  obtain ⟨hfuture, hpast⟩ := History.redo?_eq_some hredo
  rw [hpast, List.mem_cons] at hy
  rw [hfuture, List.mem_cons]
  rcases hy with rfl | (rfl | hy) | hy
  · exact .inr (.inr (.inl rfl))
  · exact .inl rfl
  · exact .inr (.inl hy)
  · exact .inr (.inr (.inr hy))

/-- **Every command that is not loose keeps groups in step**, where they are in step in the whole
history, as long as the language stays. -/
theorem inStep_perform (hs : s.Consistent) (htight : ¬ s.Loose c)
    (hlanguage : ∀ language, c ≠ .setLanguage language) : (s.perform now c).InStep := by
  cases h : s.activeTemplate? with
  | none =>
    have hnone : (s.perform now c).activeTemplate? = none := by
      rw [← Option.not_isSome_iff_eq_none, isSome_activeTemplate?_perform, h]
      simp
    exact inStep_of_none hnone
  | some t =>
    cases c with
    | editContent text kind => exact inStep_editContent h kind htight
    | insertPlaceholder cursor key => exact absurd trivial htight
    | assignGroup cursor group => exact inStep_assignGroup hs.current cursor group
    | removeGroup cursor => exact inStep_removeGroup hs.current htight
    | select key value => exact inStep_select hs.current h key value
    | selectCustom key value => exact inStep_selectCustom hs.current h key value
    | endTypingBurst => exact hs.current
    | setLanguage language => exact absurd rfl (hlanguage language)
    | undo => exact (hs.undo h).current
    | redo => exact (hs.redo h).current

/-! ## Snapshots in the history -/

theorem Consistent.replace (hs : s.Consistent) (h : s.activeTemplate? = some t) (kind : EditKind)
    (hafter : (s.replace now kind t t').InStep) : (s.replace now kind t t').Consistent := by
  have hbefore : (Snapshot.of t).InStep s.language := (inStep_iff h).1 hs.current
  refine ⟨hafter, fun x hx => ?_, fun x hx => ?_⟩
  · change x ∈ (ite _ _ _ : History).past at hx
    rw [language_replace]
    split at hx
    · exact hs.past x hx
    · rcases History.mem_past_record hx with rfl | hx
      · exact hbefore
      · exact hs.past x hx
  · change x ∈ (ite _ _ _ : History).future at hx
    rw [language_replace]
    split at hx
    · exact hs.future x hx
    · simp at hx

/-- What a command leaves in step, it also leaves in step in the history. -/
theorem Consistent.perform (hs : s.Consistent) (hlanguage : ∀ language, c ≠ .setLanguage language)
    (hafter : (s.perform now c).InStep) : (s.perform now c).Consistent := by
  cases h : s.activeTemplate? with
  | none =>
    rcases perform_of_none h now c with ⟨burst, hperform⟩ | ⟨language, rfl⟩
    · rw [hperform] at hafter ⊢
      exact ⟨hafter, hs.past, hs.future⟩
    · exact absurd rfl (hlanguage language)
  | some t =>
    rcases perform_cases h now c with
      ⟨kind, t', library, -, -, htemplates, hperform⟩ | ⟨burst, hperform⟩ | ⟨language, rfl⟩ |
        rfl | rfl
    · have hactive := (activeTemplate?_of_templates htemplates).trans h
      rw [hperform] at hafter ⊢
      have hlibrary : Consistent { s with library } :=
        ⟨(inStep_iff hactive).2 ((inStep_iff h).1 hs.current), hs.past, hs.future⟩
      exact hlibrary.replace hactive kind hafter
    · rw [hperform] at hafter ⊢
      exact ⟨hafter, hs.past, hs.future⟩
    · exact absurd rfl (hlanguage language)
    · exact hs.undo h
    · exact hs.redo h

/-! ## Runs -/

theorem Consistent.start {library : Library} {config : Config} {baseline : Option Library}
    (h : (start library config baseline).InStep) : (start library config baseline).Consistent :=
  ⟨h, fun _ hx => absurd hx List.not_mem_nil, fun _ hx => absurd hx List.not_mem_nil⟩

/-- **A run keeps groups in step, also in the history, if its loose commands leave them so.** -/
theorem Consistent.run (hs : s.Consistent) {commands : List (Int × Command)}
    (hlanguage : ∀ c ∈ commands, ∀ language, c.2 ≠ .setLanguage language)
    (hloose : ∀ before now c, before ++ [(now, c)] <+: commands → (s.run before).Loose c →
      (s.run (before ++ [(now, c)])).InStep) : (s.run commands).Consistent := by
  refine run_induction hs ?_
  intro before now c hpre hbefore
  have hc : ∀ language, c ≠ .setLanguage language :=
    hlanguage (now, c) (hpre.subset (List.mem_append_right _ List.mem_cons_self))
  refine hbefore.perform hc ?_
  by_cases htight : (s.run before).Loose c
  · rw [← run_concat]
    exact hloose before now c hpre htight
  · exact inStep_perform hbefore htight hc

/-- **Groups stay in step over a session if and only if its loose commands leave them in step.** The
session begins with groups in step, and its language stays. -/
theorem groups_in_step_iff (library : Library) (config : Config) (baseline : Option Library)
    (commands : List (Int × Command)) (hstart : (start library config baseline).InStep)
    (hlanguage : ∀ c ∈ commands, ∀ language, c.2 ≠ .setLanguage language) :
    (∀ before, before <+: commands → ((start library config baseline).run before).InStep) ↔
      ∀ before now c, before ++ [(now, c)] <+: commands →
        ((start library config baseline).run before).Loose c →
        ((start library config baseline).run (before ++ [(now, c)])).InStep := by
  constructor
  · intro h before now c hpre _
    exact h _ hpre
  · intro h before hpre
    refine (Consistent.run (.start hstart) (fun c hc => hlanguage c (hpre.subset hc)) ?_).current
    exact fun before' now c hpre' => h before' now c (hpre'.trans hpre)

/-- A token joins the group of another one, a value is picked for both, and the step before is
undone: none of it is loose. -/
theorem groups_in_step_of_joined_token :
    let mark (name : String) := String.ofList (braced name.toList)
    let library : Library :=
      { templates := [{ id := "t", content := .plain (mark "color" ++ " " ++ mark "color_1") }] }
    let commands : List (Int × Command) :=
      [(0, .select "color-1" (.plain "red")), (0, .assignGroup 3 1),
        (0, .select "color-0" (.plain "blue")), (0, .undo)]
    (start library {} none).InStep ∧
      ∀ before, before <+: commands → ((start library {} none).run before).InStep := by
  intro mark library commands
  have hstart : (start library {} none).InStep := by decide +kernel
  have hlanguage : ∀ c ∈ commands, ∀ language, c.2 ≠ .setLanguage language := by simp [commands]
  refine ⟨hstart, (groups_in_step_iff library {} none commands hstart hlanguage).2 ?_⟩
  intro before now c hpre hloose
  have hc : (now, c) ∈ commands := hpre.subset (List.mem_append_right _ List.mem_cons_self)
  simp only [commands, List.mem_cons, Prod.mk.injEq, List.not_mem_nil, or_false] at hc
  rcases hc with ⟨-, rfl⟩ | ⟨-, rfl⟩ | ⟨-, rfl⟩ | ⟨-, rfl⟩ <;> exact hloose.elim

/-- **Groups do not always stay in step.** In one session, each kind of loose command may bring
them out of step: the placeholder `color_1` is inserted before one in the same group; `color_1_2` is
taken out of its group `2` and read as `color_1`; the shown content is left empty, and another
language has two placeholders `a_1`, of which only one has a value. -/
theorem groups_not_always_in_step :
    let mark (name : String) := String.ofList (braced name.toList)
    let content := .ofList [("cn", mark "color_1" ++ " " ++ mark "color_1_2"),
      ("en", mark "a_1" ++ " " ++ mark "a_1")]
    let s := start { templates := [{ id := "t", content := .localized content }] } {} none
    let picked : List (Int × Command) :=
      [(0, .select "color-0" (.plain "red")), (0, .select "a-0" (.plain "red"))]
    s.InStep ∧ (s.run picked).InStep ∧
      ¬ (s.run (picked ++ [(0, .insertPlaceholder 0 "color_1")])).InStep ∧
      ¬ (s.run (picked ++ [(0, .removeGroup 16)])).InStep ∧
      ¬ (s.run (picked ++ [(0, .editContent "" .paste)])).InStep := by
  decide +kernel

end Session

end Stencil
