import Mathlib.Data.List.Infix
import Mathlib.Logic.Function.Iterate
import Stencil.Proofs.Session.Commands

/-!
# Undoing and redoing

Undoing goes back through the states of a template, and redoing forward through the same ones.

* `Timeline` — the snapshots behind and ahead of the current one, and the moves between them:
  `Timeline.forth_iterate_back` says that the way forward is the way back;
* `Timeline.Step` — what a command makes of a timeline when the history drops no step: its first
  snapshot stays, up to the order of languages and selections;
* `Session.Drops` — a command makes the history drop a step;
* `Session.undo_redo_retrace` — what undoing and redoing gives after any run of commands.
-/

namespace Stencil

/-! ## Timelines -/

/-- The snapshots of a template: those to go back to, the current one, and those to go forward to,
the nearest first. -/
structure Timeline where
  /-- The snapshots behind the current one. -/
  past : List Snapshot
  /-- The current snapshot. -/
  current : Snapshot
  /-- The snapshots ahead of the current one. -/
  future : List Snapshot

namespace Timeline

/-- One snapshot back, if there is one. -/
def back : Timeline → Timeline
  | ⟨previous :: past, current, future⟩ => ⟨past, previous, current :: future⟩
  | ⟨[], current, future⟩ => ⟨[], current, future⟩

/-- One snapshot forward, if there is one. -/
def forth : Timeline → Timeline
  | ⟨past, current, next :: future⟩ => ⟨current :: past, next, future⟩
  | ⟨past, current, []⟩ => ⟨past, current, []⟩

/-- The snapshot that lies farthest behind. -/
def origin (a : Timeline) : Snapshot := a.past.getLastD a.current

variable {a b : Timeline}

theorem origin_cons (previous : Snapshot) (past : List Snapshot) (current : Snapshot)
    (future : List Snapshot) :
    origin ⟨previous :: past, current, future⟩ = past.getLastD previous := List.getLastD_cons

theorem past_back (a : Timeline) : a.back.past = a.past.tail := by
  obtain ⟨past, current, future⟩ := a
  cases past <;> rfl

theorem past_iterate_back (n : Nat) (a : Timeline) : (back^[n] a).past = a.past.drop n := by
  induction n with
  | zero => rfl
  | succ n ih => rw [Function.iterate_succ_apply', past_back, ih, List.tail_drop]

theorem forth_back (h : a.past ≠ []) : a.back.forth = a := by
  obtain ⟨past, current, future⟩ := a
  cases past with
  | nil => exact absurd rfl h
  | cons previous past => rfl

theorem future_back (h : a.past ≠ []) : a.back.future ≠ [] := by
  obtain ⟨past, current, future⟩ := a
  cases past with
  | nil => exact absurd rfl h
  | cons previous past => exact List.cons_ne_nil _ _

theorem past_iterate_back_ne_nil {n : Nat} (h : n < a.past.length) : (back^[n] a).past ≠ [] := by
  rw [past_iterate_back]
  exact List.ne_nil_of_length_pos (by rw [List.length_drop]; omega)

/-- **The way forward is the way back.** -/
theorem forth_iterate_back {n k : Nat} (hn : n ≤ a.past.length) (hk : k ≤ n) :
    forth^[k] (back^[n] a) = back^[n - k] a := by
  induction k with
  | zero => rfl
  | succ k ih =>
    have hlt : n - (k + 1) < a.past.length := by omega
    have hsucc : n - k = n - (k + 1) + 1 := by omega
    rw [Function.iterate_succ_apply', ih (by omega), hsucc, Function.iterate_succ_apply',
      forth_back (past_iterate_back_ne_nil hlt)]

theorem origin_back (a : Timeline) : a.back.origin = a.origin := by
  obtain ⟨past, current, future⟩ := a
  cases past with
  | nil => rfl
  | cons previous past =>
    rw [origin_cons]
    rfl

theorem origin_forth (a : Timeline) : a.forth.origin = a.origin := by
  obtain ⟨past, current, future⟩ := a
  cases future with
  | nil => rfl
  | cons next future =>
    rw [forth, origin_cons]
    rfl

theorem origin_iterate_back (n : Nat) (a : Timeline) : (back^[n] a).origin = a.origin := by
  induction n with
  | zero => rfl
  | succ n ih => rw [Function.iterate_succ_apply', origin_back, ih]

/-- All the way back is the snapshot that lies farthest behind. -/
theorem current_iterate_back (a : Timeline) : (back^[a.past.length] a).current = a.origin := by
  rw [← origin_iterate_back a.past.length, origin, past_iterate_back, List.drop_length]
  rfl

/-- What a command makes of a timeline when no step is dropped. -/
inductive Step : Timeline → Timeline → Prop
  /-- Nothing changes, up to the order of languages and selections. -/
  | rest {past future : List Snapshot} {c c' : Snapshot} (h : c ≈ c') :
      Step ⟨past, c, future⟩ ⟨past, c', future⟩
  /-- A change that belongs to the last step. -/
  | fold {past future : List Snapshot} {c c' : Snapshot} (h : past ≠ []) :
      Step ⟨past, c, future⟩ ⟨past, c', []⟩
  /-- A change that is a step of its own. -/
  | push {past future : List Snapshot} {c c' : Snapshot} :
      Step ⟨past, c, future⟩ ⟨c :: past, c', []⟩
  /-- A step back. -/
  | back {a : Timeline} : Step a a.back
  /-- A step forward. -/
  | forth {a : Timeline} : Step a a.forth

/-- **A step keeps the snapshot that lies farthest behind.** -/
theorem Step.origin (h : Step a b) : a.origin ≈ b.origin := by
  have halike {x y : Snapshot} (hxy : x = y) : x ≈ y := hxy ▸ Setoid.refl x
  cases h with
  | @rest past future c c' h =>
    cases past with
    | nil => exact h
    | cons previous past => exact halike (by rw [origin_cons, origin_cons])
  | @fold past future c c' h =>
    cases past with
    | nil => exact absurd rfl h
    | cons previous past => exact halike (by rw [origin_cons, origin_cons])
  | @push past future c c' => exact halike (origin_cons c past c' []).symm
  | back => exact halike (origin_back a).symm
  | forth => exact halike (origin_forth a).symm

end Timeline

/-! ## The timeline of a session -/

namespace Session

/-- The content and the selections that are edited. -/
def snapshot? (s : Session) : Option Snapshot := s.activeTemplate?.map .of

/-- The timeline of the template that is edited. -/
def timeline? (s : Session) : Option Timeline :=
  s.activeTemplate?.map fun t => ⟨s.history.past, .of t, s.history.future⟩

variable {s : Session} {a : Timeline} {t t' : Template}

theorem snapshot?_eq (s : Session) : s.snapshot? = s.timeline?.map Timeline.current := by
  rw [snapshot?, timeline?, Option.map_map]
  rfl

theorem timeline?_undo (s : Session) : s.undo.2.timeline? = s.timeline?.map Timeline.back := by
  cases h : s.activeTemplate? with
  | none => simp [undo, travel, timeline?, h]
  | some t =>
    cases hundo : s.history.undo? (.of t) with
    | none =>
      rw [undo, travel_of_none h hundo]
      simp [timeline?, h, Timeline.back, History.undo?_eq_none_iff.1 hundo]
    | some found =>
      obtain ⟨hpast, hfuture⟩ := History.undo?_eq_some hundo
      rw [undo, travel_of_some h hundo, timeline?, activeTemplate?_restore h]
      simp [timeline?, h, Timeline.back, hpast, hfuture]
      rfl

theorem timeline?_redo (s : Session) : s.redo.2.timeline? = s.timeline?.map Timeline.forth := by
  cases h : s.activeTemplate? with
  | none => simp [redo, travel, timeline?, h]
  | some t =>
    cases hredo : s.history.redo? (.of t) with
    | none =>
      rw [redo, travel_of_none h hredo]
      simp [timeline?, h, Timeline.forth, History.redo?_eq_none_iff.1 hredo]
    | some found =>
      obtain ⟨hfuture, hpast⟩ := History.redo?_eq_some hredo
      rw [redo, travel_of_some h hredo, timeline?, activeTemplate?_restore h]
      simp [timeline?, h, Timeline.forth, hpast, hfuture]
      rfl

theorem undo_fst (h : s.timeline? = some a) : s.undo.1 ↔ a.past ≠ [] := by
  obtain ⟨t, ht, rfl⟩ := Option.map_eq_some_iff.1 h
  rw [undo, travel, ht, ne_eq, ← History.undo?_eq_none_iff ]
  cases hundo : s.history.undo? (.of t) <;> simp [hundo]

theorem redo_fst (h : s.timeline? = some a) : s.redo.1 ↔ a.future ≠ [] := by
  obtain ⟨t, ht, rfl⟩ := Option.map_eq_some_iff.1 h
  rw [redo, travel, ht, ne_eq, ← History.redo?_eq_none_iff]
  cases hredo : s.history.redo? (.of t) <;> simp [hredo]

/-- The session after a number of undos. -/
def undone (n : Nat) (s : Session) : Session := (fun s => s.undo.2)^[n] s

/-- The session after a number of redos. -/
def redone (n : Nat) (s : Session) : Session := (fun s => s.redo.2)^[n] s

theorem timeline?_undone (n : Nat) (s : Session) :
    (undone n s).timeline? = s.timeline?.map Timeline.back^[n] := by
  induction n with
  | zero => simp [undone]
  | succ n ih =>
    rw [undone, Function.iterate_succ_apply', timeline?_undo, ← undone, ih, Option.map_map,
      Function.iterate_succ']

theorem timeline?_redone (n : Nat) (s : Session) :
    (redone n s).timeline? = s.timeline?.map Timeline.forth^[n] := by
  induction n with
  | zero => simp [redone]
  | succ n ih =>
    rw [redone, Function.iterate_succ_apply', timeline?_redo, ← redone, ih, Option.map_map,
      Function.iterate_succ']

theorem past_of_timeline? (h : s.timeline? = some a) : a.past = s.history.past := by
  obtain ⟨t, -, rfl⟩ := Option.map_eq_some_iff.1 h
  rfl

section Steps

variable {n k : Nat}

/-- Undoing succeeds as often as there are steps, where there are none without a template. -/
theorem undo_undone (hsteps : s.activeTemplate? = none → s.history.past = []) (n : Nat) :
    (undone n s).undo.1 ↔ n < s.history.undoCount := by
  have hundone := timeline?_undone n s
  cases h : s.timeline? with
  | none =>
    rw [h] at hundone
    have hnone : (undone n s).activeTemplate? = none := Option.map_eq_none_iff.1 hundone
    rw [undo, travel, hnone, History.undoCount, hsteps (Option.map_eq_none_iff.1 h)]
    simp
  | some a =>
    rw [h] at hundone
    rw [undo_fst hundone, Timeline.past_iterate_back, past_of_timeline? h, ne_eq,
      List.drop_eq_nil_iff]
    exact Nat.not_le

/-- Redoing after undoing goes through the same states. -/
theorem snapshot?_redone_undone (hn : n ≤ s.history.undoCount) (hk : k ≤ n) :
    (redone k (undone n s)).snapshot? = (undone (n - k) s).snapshot? := by
  rw [snapshot?_eq, snapshot?_eq, timeline?_redone, timeline?_undone, timeline?_undone]
  cases h : s.timeline? with
  | none => rfl
  | some a =>
    have hpast : n ≤ a.past.length := past_of_timeline? h ▸ hn
    rw [Option.map_some, Option.map_some, Timeline.forth_iterate_back hpast hk]
    rfl

/-- Redoing succeeds as often as undoing did. -/
theorem redo_redone_undone (hsteps : s.activeTemplate? = none → s.history.past = [])
    (hn : n ≤ s.history.undoCount) (hk : k < n) : (redone k (undone n s)).redo.1 := by
  have hredone := timeline?_redone k (undone n s)
  rw [timeline?_undone] at hredone
  cases h : s.timeline? with
  | none =>
    rw [History.undoCount, hsteps (Option.map_eq_none_iff.1 h)] at hn
    exact absurd hn (by simp; omega)
  | some a =>
    have hpast : n ≤ a.past.length := past_of_timeline? h ▸ hn
    have hlast : n - k = n - k - 1 + 1 := by omega
    rw [h, Option.map_some, Option.map_some,
      Timeline.forth_iterate_back hpast (Nat.le_of_lt hk), hlast,
      Function.iterate_succ_apply'] at hredone
    rw [redo_fst hredone]
    exact Timeline.future_back (Timeline.past_iterate_back_ne_nil (by omega))

end Steps

/-! ## Runs -/

/-- A command makes the history drop a step: it changes something, the change is a step of its own,
and the history holds as many as it can. -/
def Drops (s : Session) (now : Int) (c : Command) : Prop :=
  ∃ kind before after, c.kind? = some kind ∧ s.snapshot? = some before ∧
    (s.perform now c).snapshot? = some after ∧ ¬ before ≈ after ∧
    (s.history.record before kind now).1 ∧ s.history.limit ≤ s.history.undoCount

/-- A change of the active template is a step of its timeline, if there is room for one. -/
theorem step_replace (h : s.activeTemplate? = some t) (hid : t'.id = t.id) (now : Int)
    (kind : EditKind) (hroom : ¬ Snapshot.of t ≈ .of t' → (s.history.record (.of t) kind now).1 →
      s.history.past.length < s.history.limit) :
    ∃ b, (s.replace now kind t t').timeline? = some b ∧
      Timeline.Step ⟨s.history.past, .of t, s.history.future⟩ b := by
  rw [timeline?, activeTemplate?_replace h hid]
  refine ⟨_, rfl, ?_⟩
  rw [replace]
  by_cases hsame : Snapshot.of t ≈ .of t'
  · simp only [if_pos hsame]
    exact .rest hsame
  · simp only [if_neg hsame, History.future_record]
    rcases History.past_record s.history (.of t) kind now with ⟨-, hne, hpast⟩ | ⟨hown, hpast⟩
    · rw [hpast]
      exact .fold hne
    · -- nothing is dropped, so the new step comes on top of the others
      rw [hpast, List.take_of_length_le (Nat.succ_le_of_lt (hroom hsame hown))]
      exact .push

theorem step_perform (h : s.timeline? = some a) {now : Int} {c : Command}
    (hdrop : ¬ s.Drops now c) : ∃ b, (s.perform now c).timeline? = some b ∧ a.Step b := by
  obtain ⟨t, ht, rfl⟩ := Option.map_eq_some_iff.1 h
  rcases perform_cases ht now c with
    ⟨kind, t', library, hkind, hid, htemplates, hperform⟩ | ⟨burst, hperform⟩ | ⟨language, rfl⟩ |
      rfl | rfl
  · have hactive := (activeTemplate?_of_templates htemplates).trans ht
    have hbefore : s.snapshot? = some (.of t) := congrArg (Option.map Snapshot.of) ht
    have hafter : (s.perform now c).snapshot? = some (.of t') := by
      rw [hperform]
      exact congrArg (Option.map Snapshot.of) (activeTemplate?_replace hactive hid now kind)
    rw [hperform]
    refine step_replace hactive hid now kind fun hchange hown => Nat.lt_of_not_le fun hfull => ?_
    exact hdrop ⟨kind, .of t, .of t', hkind, hbefore, hafter, hchange, hown, hfull⟩
  · refine ⟨_, ?_, .rest (Setoid.refl _)⟩
    rw [hperform]
    exact h
  · exact ⟨_, h, .rest (Setoid.refl _)⟩
  · exact ⟨_, by rw [perform, timeline?_undo, h]; rfl, .back⟩
  · exact ⟨_, by rw [perform, timeline?_redo, h]; rfl, .forth⟩

/-- No command of a run makes the history drop a step. -/
def KeepsSteps (s : Session) (commands : List (Int × Command)) : Prop :=
  ∀ before now c, before ++ [(now, c)] <+: commands → ¬ (s.run before).Drops now c

/-- **A run that drops no step keeps the snapshot that lies farthest behind.** -/
theorem origin_run (h : s.timeline? = some a) {commands : List (Int × Command)}
    (hkeeps : s.KeepsSteps commands) :
    ∃ b, (s.run commands).timeline? = some b ∧ a.origin ≈ b.origin := by
  refine run_induction (motive := fun s => ∃ b, s.timeline? = some b ∧ a.origin ≈ b.origin)
    ⟨a, h, Setoid.refl a.origin⟩ ?_
  rintro before now c hpre ⟨b, hb, horigin⟩
  obtain ⟨b', hb', hstep⟩ := step_perform hb (hkeeps before now c hpre)
  exact ⟨b', hb', Setoid.trans horigin hstep.origin⟩

/-- Without a template there are no steps. -/
theorem past_run_of_none (hsteps : s.activeTemplate? = none → s.history.past = [])
    (commands : List (Int × Command)) :
    (s.run commands).activeTemplate? = none → (s.run commands).history.past = [] := by
  refine run_induction (motive := fun s => s.activeTemplate? = none → s.history.past = []) hsteps ?_
  intro before now c _ hbefore hafter
  have hnone : (s.run before).activeTemplate? = none := by
    rw [← Option.not_isSome_iff_eq_none, ← isSome_activeTemplate?_perform _ now c, hafter]
    simp
  rcases perform_of_none hnone now c with ⟨burst, hperform⟩ | ⟨language, rfl⟩
  · rw [hperform]
    exact hbefore hnone
  · exact hbefore hnone

/-- All the way back from the end of a run that drops no step lies its beginning. -/
theorem snapshot?_undone_run (hpast : s.history.past = []) {commands : List (Int × Command)}
    (hkeeps : s.KeepsSteps commands) :
    Option.Rel (· ≈ ·) s.snapshot?
      (undone (s.run commands).history.undoCount (s.run commands)).snapshot? := by
  rw [snapshot?_eq, snapshot?_eq, timeline?_undone]
  cases h : s.timeline? with
  | none =>
    have hnone : (s.run commands).activeTemplate? = none := by
      rw [← Option.not_isSome_iff_eq_none, isSome_activeTemplate?_run, Option.map_eq_none_iff.1 h]
      simp
    rw [timeline?, hnone]
    exact .none
  | some a =>
    obtain ⟨b, hb, horigin⟩ := origin_run h hkeeps
    have hstart : a.origin = a.current := by
      rw [Timeline.origin, past_of_timeline? h, hpast]
      rfl
    have hback : (Timeline.back^[(s.run commands).history.undoCount] b).current = b.origin := by
      rw [History.undoCount, ← past_of_timeline? hb]
      exact b.current_iterate_back
    rw [hb]
    refine .some ?_
    rw [hback, ← hstart]
    exact horigin

/-- **Undoing and redoing retrace a session.** From a history without steps, any commands are given
at any times. Undoing then succeeds as often as there are steps and no more, and if the history
never dropped a step it ends at the content and the selections of the beginning. Redoing after
undoing goes through the same states the other way round. -/
theorem undo_redo_retrace (s : Session) (commands : List (Int × Command)) :
    let fresh := { s with history := s.history.reset }
    let reached := fresh.run commands
    let count := reached.history.undoCount
    (∀ n, (undone n reached).undo.1 ↔ n < count) ∧
      (fresh.KeepsSteps commands →
        Option.Rel (· ≈ ·) fresh.snapshot? (undone count reached).snapshot?) ∧
      ∀ n ≤ count, ∀ k ≤ n,
        (redone k (undone n reached)).snapshot? = (undone (n - k) reached).snapshot? ∧
          (k < n → (redone k (undone n reached)).redo.1) := by
  intro fresh reached count
  have hsteps : reached.activeTemplate? = none → reached.history.past = [] :=
    past_run_of_none (fun _ => rfl) commands
  refine ⟨undo_undone hsteps, fun hkeeps => snapshot?_undone_run rfl hkeeps, fun n hn k hk => ?_⟩
  exact ⟨snapshot?_redone_undone hn hk, redo_redone_undone hsteps hn⟩

/-- Two keystrokes within a millisecond are one step and picking a value is another one; both are
undone, also after one was undone and redone. -/
theorem retrace_of_burst :
    let s := start { templates := [{ id := "t" }] } {} none
    let commands : List (Int × Command) :=
      [(0, .editContent "h" .typing), (1000000, .editContent "he" .typing),
        (5000000, .select "a-0" (.plain "red")), (0, .undo), (0, .redo)]
    let fresh := { s with history := s.history.reset }
    let reached := fresh.run commands
    fresh.KeepsSteps commands ∧ reached.history.undoCount = 2 ∧ (undone 1 reached).undo.1 ∧
      Option.Rel (· ≈ ·) fresh.snapshot? (undone 2 reached).snapshot? ∧
      (redone 2 (undone 2 reached)).snapshot? = reached.snapshot? := by
  intro s commands fresh reached
  have hcount : reached.history.undoCount = 2 := by decide +kernel
  have hkeeps : fresh.KeepsSteps commands := by
    -- the history never holds as many steps as it can
    have hroom : ∀ before ∈ commands.inits,
        (fresh.run before).history.undoCount < (fresh.run before).history.limit := by
      decide +kernel
    rintro before now c hpre ⟨kind, x, y, -, -, -, -, -, hfull⟩
    have hbefore : before ∈ commands.inits :=
      (List.mem_inits before commands).2 ((List.prefix_append _ _).trans hpre)
    exact Nat.not_le_of_lt (hroom before hbefore) hfull
  obtain ⟨hundo, horigin, hretrace⟩ := undo_redo_retrace s commands
  have hend := horigin hkeeps
  have hagain := (hretrace 2 (Nat.le_of_eq hcount.symm) 2 (Nat.le_refl 2)).1
  rw [hcount] at hend
  exact ⟨hkeeps, hcount, (hundo 1).2 (by rw [hcount]; omega), hend, hagain⟩

end Session

end Stencil
