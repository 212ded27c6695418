import Mathlib.Data.List.Induction
import Stencil.History

/-!
# Runs of a history

What happens to a history, one move after another.

* `History.past_record` — the steps after a change has been noted;
* `History.Move`, `History.perform`, `History.run` — a move, what it makes of a history, and what
  many of them do. One that fails leaves the history as it is;
* `History.Step` — all that a move can do, which `step_perform` says of every move;
* `History.Bounded` — what every move keeps: the steps behind and ahead are together no more than
  the limit, and while a burst is open there is one behind and none ahead;
* `History.steps_within_limit` — the same of every run, with what is dropped at the limit.
-/

namespace Stencil

namespace History

variable {h h' : History} {before current x : Snapshot} {kind : EditKind} {now : Int}

/-! ## Steps of a history -/

@[simp] theorem future_record (h : History) (before : Snapshot) (kind : EditKind) (now : Int) :
    (h.record before kind now).2.future = [] := by
  simp only [record]
  split <;> rfl

/-- Typing belongs to the burst if there is one, with a step behind it, and it is in time. -/
theorem inBurst_iff :
    h.inBurst now ↔ ∃ last, h.burst = some last ∧ 0 ≤ elapsedMs last now ∧
      elapsedMs last now ≤ h.coalesceMs ∧ h.past ≠ [] := by
  unfold inBurst
  cases h.burst <;> simp [and_assoc]

theorem record_fst_eq_false_iff :
    (h.record before kind now).1 = false ↔ kind = .typing ∧ h.inBurst now := by
  simp only [record]
  split <;> simp_all

/-- A change belongs to the burst, or is a step of its own. -/
theorem past_record (h : History) (before : Snapshot) (kind : EditKind) (now : Int) :
    (h.record before kind now).1 = false ∧ h.past ≠ [] ∧
        (h.record before kind now).2.past = h.past ∨
      (h.record before kind now).1 = true ∧
        (h.record before kind now).2.past = (before :: h.past).take h.limit := by
  by_cases hfold : (decide (kind = .typing) && h.inBurst now) = true
  · obtain ⟨-, -, -, -, hpast⟩ := inBurst_iff.1 (Bool.and_eq_true_iff.1 hfold).2
    left
    rw [record, if_pos hfold]
    exact ⟨rfl, hpast, rfl⟩
  · right
    rw [record, if_neg hfold]
    exact ⟨rfl, rfl⟩

theorem past_record_of_folded (hfold : (h.record before kind now).1 = false) :
    (h.record before kind now).2.past = h.past := by
  rcases past_record h before kind now with ⟨-, -, hpast⟩ | ⟨hown, -⟩
  · exact hpast
  · exact absurd (hown.symm.trans hfold) (by simp)

theorem mem_past_record (hx : x ∈ (h.record before kind now).2.past) : x = before ∨ x ∈ h.past := by
  rcases past_record h before kind now with ⟨-, -, hpast⟩ | ⟨-, hpast⟩
  · exact .inr (hpast ▸ hx)
  · exact List.mem_cons.1 (List.mem_of_mem_take (hpast ▸ hx))

theorem undo?_eq_some (hundo : h.undo? current = some (x, h')) :
    h.past = x :: h'.past ∧ h'.future = current :: h.future := by
  unfold undo? at hundo
  split at hundo
  · rename_i hpast
    obtain ⟨rfl, rfl⟩ := Prod.mk.inj (Option.some.inj hundo)
    exact ⟨hpast, rfl⟩
  · exact absurd hundo (by simp)

theorem redo?_eq_some (hredo : h.redo? current = some (x, h')) :
    h.future = x :: h'.future ∧ h'.past = current :: h.past := by
  unfold redo? at hredo
  split at hredo
  · rename_i hfuture
    obtain ⟨rfl, rfl⟩ := Prod.mk.inj (Option.some.inj hredo)
    exact ⟨hfuture, rfl⟩
  · exact absurd hredo (by simp)

theorem undo?_eq_none_iff : h.undo? current = none ↔ h.past = [] := by
  unfold undo?
  split <;> simp_all

theorem redo?_eq_none_iff : h.redo? current = none ↔ h.future = [] := by
  unfold redo?
  split <;> simp_all

/-! ## Moves -/

/-- What happens to a history. -/
inductive Move where
  /-- A change that began at `before` is noted. -/
  | record (before : Snapshot) (kind : EditKind) (now : Int)
  /-- The open burst is closed. -/
  | endBurst
  /-- A step back from `current`. -/
  | undo (current : Snapshot)
  /-- A step forward from `current`. -/
  | redo (current : Snapshot)
  /-- All steps are dropped. -/
  | reset

/-- What a move makes of a history. -/
def perform (h : History) : Move → History
  | .record before kind now => (h.record before kind now).2
  | .endBurst => h.endBurst
  | .undo current => (h.undo? current).elim h (·.2)
  | .redo current => (h.redo? current).elim h (·.2)
  | .reset => h.reset

/-- Moves one after another. -/
def run (h : History) (moves : List Move) : History := moves.foldl perform h

@[simp] theorem run_nil (h : History) : h.run [] = h := rfl

@[simp] theorem run_concat (h : History) (moves : List Move) (m : Move) :
    h.run (moves ++ [m]) = (h.run moves).perform m := by
  simp [run, List.foldl_append]

/-- All that a move can do. -/
inductive Step (h : History) : Move → History → Prop
  /-- A change belongs to the burst. -/
  | folded (before : Snapshot) (now : Int) (hburst : h.inBurst now) :
      Step h (.record before .typing now) { h with future := [], burst := some now }
  /-- A change is a step of its own. -/
  | recorded (before : Snapshot) (kind : EditKind) (now : Int)
      (hown : ¬ (kind = .typing ∧ h.inBurst now)) :
      Step h (.record before kind now)
        { h with
          past := (before :: h.past).take h.limit
          future := []
          burst := if kind = .typing then some now else none }
  /-- The burst is closed. -/
  | burstEnded : Step h .endBurst { h with burst := none }
  /-- There is a step to undo. -/
  | undone (current : Snapshot) {x : Snapshot} {past : List Snapshot} (hpast : h.past = x :: past) :
      Step h (.undo current) { h with past, future := current :: h.future, burst := none }
  /-- There is no step to undo. -/
  | notUndone (current : Snapshot) (hpast : h.past = []) : Step h (.undo current) h
  /-- There is a step to redo. -/
  | redone (current : Snapshot) {x : Snapshot} {future : List Snapshot}
      (hfuture : h.future = x :: future) :
      Step h (.redo current) { h with past := current :: h.past, future, burst := none }
  /-- There is no step to redo. -/
  | notRedone (current : Snapshot) (hfuture : h.future = []) : Step h (.redo current) h
  /-- All steps are dropped. -/
  | reset : Step h .reset { h with past := [], future := [], burst := none }

theorem step_perform (h : History) (m : Move) : Step h m (h.perform m) := by
  cases m with
  | record before kind now =>
    by_cases hfold : kind = .typing ∧ h.inBurst now
    · obtain ⟨rfl, hburst⟩ := hfold
      have hperform : h.perform (.record before .typing now) =
          { h with future := [], burst := some now } := by
        simp [perform, record, hburst]
      exact hperform ▸ .folded before now hburst
    · have hperform : h.perform (.record before kind now) =
          { h with
            past := (before :: h.past).take h.limit
            future := []
            burst := if kind = .typing then some now else none } := by
        rw [perform, record, if_neg (by simpa using hfold)]
        rfl
      exact hperform ▸ .recorded before kind now hfold
  | endBurst => exact .burstEnded
  | undo current =>
    cases hpast : h.past with
    | nil =>
      have hperform : h.perform (.undo current) = h := by simp [perform, undo?, hpast]
      exact hperform.symm ▸ .notUndone current hpast
    | cons x past =>
      have hperform : h.perform (.undo current) =
          { h with past, future := current :: h.future, burst := none } := by
        simp [perform, undo?, hpast]
      exact hperform ▸ .undone current hpast
  | redo current =>
    cases hfuture : h.future with
    | nil =>
      have hperform : h.perform (.redo current) = h := by simp [perform, redo?, hfuture]
      exact hperform.symm ▸ .notRedone current hfuture
    | cons x future =>
      have hperform : h.perform (.redo current) =
          { h with past := current :: h.past, future, burst := none } := by
        simp [perform, redo?, hfuture]
      exact hperform ▸ .redone current hfuture
  | reset => exact .reset

/-! ## The limit -/

/-- What every move keeps of a history with some settings. -/
structure Bounded (config : HistoryConfig) (h : History) : Prop where
  limit_eq : h.limit = max config.limit 1
  coalesceMs_eq : h.coalesceMs = config.coalesceMs
  length_le : h.past.length + h.future.length ≤ h.limit
  of_burst : h.burst.isSome → h.past ≠ [] ∧ h.future = []

variable {config : HistoryConfig} {m : Move}

theorem bounded_new (config : HistoryConfig) : Bounded config (.new config) :=
  ⟨rfl, rfl, Nat.zero_le _, fun hburst => absurd hburst (by simp [new])⟩

/-- A step of its own is kept, as the history holds at least one. -/
theorem Bounded.take_eq (hb : Bounded config h) (before : Snapshot) :
    (before :: h.past).take h.limit = before :: h.past.take (h.limit - 1) := by
  have hlimit := hb.limit_eq
  obtain ⟨n, hn⟩ : ∃ n, h.limit = n + 1 := ⟨h.limit - 1, by omega⟩
  rw [hn, List.take_succ_cons, Nat.add_sub_cancel]

/-- A step of its own comes on top of the steps behind, for as many as there is room for. -/
theorem Bounded.past_record (hb : Bounded config h) (hown : (h.record before kind now).1 = true) :
    (h.record before kind now).2.past = before :: h.past.take (h.limit - 1) := by
  rcases History.past_record h before kind now with ⟨hfold, -⟩ | ⟨-, hpast⟩
  · exact absurd (hfold.symm.trans hown) (by simp)
  · rw [hpast, hb.take_eq]

/-- A change belongs to the burst if it is typing and in time: while a burst is open, there is a
step behind. -/
theorem Bounded.record_fst_eq_false_iff (hb : Bounded config h) :
    (h.record before kind now).1 = false ↔
      kind = .typing ∧ ∃ last, h.burst = some last ∧ 0 ≤ elapsedMs last now ∧
        elapsedMs last now ≤ config.coalesceMs := by
  rw [History.record_fst_eq_false_iff, inBurst_iff, hb.coalesceMs_eq]
  exact and_congr_right fun _ => exists_congr fun last => and_congr_right fun hburst =>
    and_congr_right fun _ => and_iff_left (hb.of_burst (hburst ▸ rfl)).1

/-- **A move keeps the limit and the place of the burst.** Noting a change checks the limit. Going
back and forward only moves a step from one side to the other. -/
theorem Bounded.step (hb : Bounded config h) (hstep : Step h m h') : Bounded config h' := by
  have hlimit := hb.limit_eq
  have hlength := hb.length_le
  cases hstep with
  | folded before now hin =>
    obtain ⟨last, hlast, -⟩ := inBurst_iff.1 hin
    obtain ⟨hpast, hfuture⟩ := hb.of_burst (hlast ▸ rfl)
    refine ⟨hlimit, hb.coalesceMs_eq, ?_, fun _ => ⟨hpast, rfl⟩⟩
    rwa [hfuture] at hlength
  | recorded before kind now _ =>
    refine ⟨hlimit, hb.coalesceMs_eq, List.length_take_le _ _, fun _ => ⟨?_, rfl⟩⟩
    rw [hb.take_eq]
    exact List.cons_ne_nil _ _
  | burstEnded => exact ⟨hlimit, hb.coalesceMs_eq, hlength, fun hopen => nomatch hopen⟩
  | @undone current x past hpast =>
    refine ⟨hlimit, hb.coalesceMs_eq, ?_, fun hopen => nomatch hopen⟩
    show past.length + (h.future.length + 1) ≤ h.limit
    rw [hpast, List.length_cons] at hlength
    omega
  | @redone current x future hfuture =>
    refine ⟨hlimit, hb.coalesceMs_eq, ?_, fun hopen => nomatch hopen⟩
    show h.past.length + 1 + future.length ≤ h.limit
    rw [hfuture, List.length_cons] at hlength
    omega
  | notUndone | notRedone => exact hb
  | reset => exact ⟨hlimit, hb.coalesceMs_eq, Nat.zero_le _, fun hopen => nomatch hopen⟩

theorem bounded_run (config : HistoryConfig) (moves : List Move) :
    Bounded config ((new config).run moves) :=
  List.foldlRecOn moves perform (bounded_new config) fun h hb m _ => hb.step (step_perform h m)

/-- **A history never outgrows its limit.** After any moves, the steps behind and ahead are together
no more than the limit, and while a burst is open there is a step behind and none ahead. A change
that is noted is a step of its own unless it is typing, a burst is open and it is in time. Then it
belongs to the latest step; otherwise it comes on top of the steps behind, and the oldest one is
dropped, and no other, if there is no room. -/
theorem steps_within_limit (config : HistoryConfig) (moves : List Move) :
    let h := (new config).run moves
    h.past.length + h.future.length ≤ max config.limit 1 ∧
      (h.burst.isSome → h.past ≠ [] ∧ h.future = []) ∧
      ∀ before kind now,
        ((h.record before kind now).1 = true ↔
          ¬ (kind = .typing ∧ ∃ last, h.burst = some last ∧ 0 ≤ elapsedMs last now ∧
            elapsedMs last now ≤ config.coalesceMs)) ∧
          ((h.record before kind now).1 = false → (h.record before kind now).2.past = h.past) ∧
          ((h.record before kind now).1 = true →
            (h.record before kind now).2.past = before ::
              if h.past.length < max config.limit 1 then h.past else h.past.dropLast) := by
  intro h
  have hb : Bounded config h := bounded_run config moves
  have hlength := hb.length_le
  rw [← hb.limit_eq]
  refine ⟨hlength, hb.of_burst, fun before kind now => ⟨?_, fun hfold => ?_, fun hown => ?_⟩⟩
  · rw [← hb.record_fst_eq_false_iff, Bool.not_eq_false]
  · exact past_record_of_folded hfold
  · rw [hb.past_record hown]
    split
    · rw [List.take_of_length_le (by omega)]
    · rw [List.dropLast_eq_take, show h.limit = h.past.length by omega]

/-- A history with a limit of zero holds one step, which a later change takes the place of. -/
example (a b c : Snapshot) :
    ((new { limit := 0 }).run [.record a .paste 0, .record b .paste 0]).past = [b] ∧
      ((new { limit := 0 }).run [.record a .paste 0, .undo b, .redo a, .record c .paste 0]).past =
        [c] := ⟨rfl, rfl⟩

end History

end Stencil
