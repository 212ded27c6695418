import Stencil.Proofs.History

/-!
# Bursts of typing

A history knows an open burst by one time. It stands for what happened: the latest typing was then,
and nothing has ended the burst since.

* `History.Move.EndsBurst` — moves that end a burst;
* `History.TypedLast` — the latest typing in a run, if no later move ended its burst:
  `burst_run_iff` says that it is the time that the history has;
* `History.Move.LeavesSteps` — moves that change no step behind: `past_run` says the same of many;
* `History.typing_folds_iff` — which changes belong to a burst, and what undoing a burst gives back.
-/

namespace Stencil.History

/-! ## The end of a burst -/

/-- A move ends an open burst: it notes a change other than typing, closes the burst, goes back or
forward to a step that is there, or drops all steps. -/
def Move.EndsBurst (h : History) : Move → Prop
  | .record _ kind _ => kind ≠ .typing
  | .endBurst | .reset => True
  | .undo current => (h.undo? current).isSome
  | .redo current => (h.redo? current).isSome

/-- The latest typing of a run was at `last`, and no later move has ended its burst. -/
def TypedLast (h : History) (moves : List Move) (last : Int) : Prop :=
  ∃ pre before post, moves = pre ++ .record before .typing last :: post ∧
    (∀ done m, done ++ [m] <+: post →
      ¬ m.EndsBurst (h.run (pre ++ .record before .typing last :: done))) ∧
    ∀ x now, .record x .typing now ∉ post

variable {h h' : History} {m : Move} {moves : List Move} {before current : Snapshot}
  {kind : EditKind} {last now : Int}

theorem not_typedLast_nil : ¬ TypedLast h [] last := by
  rintro ⟨pre, before, post, hsplit, -⟩
  simp at hsplit

/-- Typing is the latest of a run if it is its last move, or was the latest before a move that
neither ends the burst nor is typing. -/
theorem typedLast_concat_iff :
    TypedLast h (moves ++ [m]) last ↔
      (∃ before, m = .record before .typing last) ∨
        TypedLast h moves last ∧ ¬ m.EndsBurst (h.run moves) ∧
          ∀ x now, m ≠ .record x .typing now := by
  constructor
  · rintro ⟨pre, before, post, hsplit, hopen, hlatest⟩
    cases post using List.reverseRecOn with
    | nil =>
      obtain ⟨-, hm⟩ := List.append_inj' hsplit rfl
      exact .inl ⟨before, List.singleton_inj.1 hm⟩
    | append_singleton post m' =>
      rw [← List.cons_append, ← List.append_assoc] at hsplit
      obtain ⟨rfl, hm⟩ := List.append_inj' hsplit rfl
      obtain rfl := List.singleton_inj.1 hm
      refine .inr ⟨⟨pre, before, post, rfl, ?_, ?_⟩, hopen post m (List.prefix_refl _), ?_⟩
      · exact fun done m' hdone => hopen done m' (hdone.trans (List.prefix_append _ _))
      · exact fun x now hmem => hlatest x now (List.mem_append_left _ hmem)
      · rintro x now rfl
        exact hlatest x now (by simp)
  · rintro (⟨before, rfl⟩ | ⟨⟨pre, before, post, rfl, hopen, hlatest⟩, hm, hkind⟩)
    · exact ⟨moves, before, [], rfl, by simp, by simp⟩
    · refine ⟨pre, before, post ++ [m], by simp, fun done m' hdone => ?_, fun x now hmem => ?_⟩
      · rcases List.prefix_concat_iff.1 hdone with hall | hdone
        · obtain ⟨rfl, hm'⟩ := List.append_inj' hall rfl
          obtain rfl := List.singleton_inj.1 hm'
          exact hm
        · exact hopen done m' hdone
      · rcases List.mem_append.1 hmem with hmem | hmem
        · exact hlatest x now hmem
        · exact hkind x now (List.mem_singleton.1 hmem).symm

/-- A burst is open after a move that is typing, and after one that leaves it open. -/
theorem burst_perform_iff (h : History) (m : Move) (last : Int) :
    (h.perform m).burst = some last ↔
      (∃ before, m = .record before .typing last) ∨
        h.burst = some last ∧ ¬ m.EndsBurst h ∧ ∀ x now, m ≠ .record x .typing now := by
  have hstep := step_perform h m
  generalize h.perform m = h' at hstep
  cases hstep with
  | folded before now _ => simp
  | recorded before kind now _ =>
    by_cases hkind : kind = .typing <;> simp [hkind, Move.EndsBurst]
  | burstEnded | reset => simp [Move.EndsBurst]
  | undone current hpast => simp [Move.EndsBurst, undo?, hpast]
  | notUndone current hpast => simp [Move.EndsBurst, undo?, hpast]
  | redone current hfuture => simp [Move.EndsBurst, redo?, hfuture]
  | notRedone current hfuture => simp [Move.EndsBurst, redo?, hfuture]

/-- **The open burst is that of the latest typing.** -/
theorem burst_run_iff (hclosed : h.burst = none) :
    (h.run moves).burst = some last ↔ TypedLast h moves last := by
  induction moves using List.reverseRecOn with
  | nil => simp [hclosed, not_typedLast_nil]
  | append_singleton moves m ih =>
    rw [run_concat, burst_perform_iff, typedLast_concat_iff, ih]

theorem TypedLast.eq {last' : Int} (hclosed : h.burst = none) (htyped : TypedLast h moves last)
    (htyped' : TypedLast h moves last') : last = last' := by
  rw [← burst_run_iff hclosed] at htyped htyped'
  exact Option.some.inj (htyped.symm.trans htyped')

/-! ## Steps that stay -/

/-- A move changes none of the steps behind: it notes a change that belongs to the burst, closes the
burst, or goes back or forward where there is no step. -/
def Move.LeavesSteps (h : History) : Move → Prop
  | .record before kind now => (h.record before kind now).1 = false
  | .endBurst => True
  | .undo current => h.undo? current = none
  | .redo current => h.redo? current = none
  | .reset => False

/-- Moves of which each, in its turn, changes none of the steps behind. -/
def LeaveSteps (h : History) : List Move → Prop
  | [] => True
  | m :: moves => m.LeavesSteps h ∧ LeaveSteps (h.perform m) moves

theorem past_perform (hm : m.LeavesSteps h) : (h.perform m).past = h.past := by
  cases m with
  | record before kind now => exact past_record_of_folded hm
  | endBurst => rfl
  | undo current =>
    have hnone : h.undo? current = none := hm
    rw [perform, hnone, Option.elim_none]
  | redo current =>
    have hnone : h.redo? current = none := hm
    rw [perform, hnone, Option.elim_none]
  | reset => exact hm.elim

theorem past_run (hmoves : LeaveSteps h moves) : (h.run moves).past = h.past := by
  induction moves generalizing h with
  | nil => rfl
  | cons m moves ih => exact (ih hmoves.2).trans (past_perform hmoves.1)

/-! ## Changes that belong together -/

/-- Between whole milliseconds, the time that has passed is their difference. -/
theorem elapsedMs_mul (last now : Int) :
    elapsedMs (1000000 * last) (1000000 * now) = now - last := by
  rw [elapsedMs, ← Int.mul_sub, Int.mul_tdiv_cancel_left _ (by decide)]

/-- A change belongs to a burst if it is typing and in time after the latest typing. -/
theorem record_run_fst_eq_false_iff (config : HistoryConfig) :
    (((new config).run moves).record before kind now).1 = false ↔
      kind = .typing ∧ ∃ last, TypedLast (new config) moves last ∧
        0 ≤ elapsedMs last now ∧ elapsedMs last now ≤ config.coalesceMs := by
  rw [(bounded_run config moves).record_fst_eq_false_iff]
  exact and_congr_right fun _ => exists_congr fun last => by rw [← burst_run_iff rfl]

/-- **Which changes belong to a burst.** After any moves, a change is not a step of its own exactly
if it is typing, the latest typing has not been followed by anything that ends its burst, and the
time that has passed since then lies between zero and the time within which typing belongs together.
Then the steps behind stay as they are; otherwise the state before the change comes on top of them.
So undoing once after a burst, which is a step of its own and all that belongs to it, gives back the
state before its first change. -/
theorem typing_folds_iff (config : HistoryConfig) (moves : List Move) (before : Snapshot)
    (kind : EditKind) (now : Int) :
    let h := (new config).run moves
    let noted := h.record before kind now
    (noted.1 = false ↔
        kind = .typing ∧ ∃ last, TypedLast (new config) moves last ∧
          0 ≤ elapsedMs last now ∧ elapsedMs last now ≤ config.coalesceMs) ∧
      (∀ lastMs nowMs : Int, TypedLast (new config) moves (1000000 * lastMs) →
        now = 1000000 * nowMs →
        (noted.1 = false ↔
          kind = .typing ∧ 0 ≤ nowMs - lastMs ∧ nowMs - lastMs ≤ config.coalesceMs)) ∧
      (noted.1 = false → noted.2.past = h.past) ∧
      (noted.1 = true → ∃ kept, noted.2.past = before :: kept ∧ kept <+: h.past) ∧
      (noted.1 = true → ∀ rest current, LeaveSteps noted.2 rest →
        ((noted.2.run rest).undo? current).map Prod.fst = some before) := by
  intro h noted
  have hown (hnoted : noted.1 = true) : noted.2.past = before :: h.past.take (h.limit - 1) :=
    (bounded_run config moves).past_record hnoted
  refine ⟨record_run_fst_eq_false_iff config, ?_, past_record_of_folded,
    fun hnoted => ⟨_, hown hnoted, List.take_prefix _ _⟩, ?_⟩
  · rintro lastMs nowMs htyped rfl
    rw [record_run_fst_eq_false_iff]
    refine and_congr_right fun _ => ⟨?_, fun htime => ⟨_, htyped, by rwa [elapsedMs_mul]⟩⟩
    rintro ⟨last, htyped', htime⟩
    obtain rfl := htyped'.eq rfl htyped
    rwa [elapsedMs_mul] at htime
  · intro hnoted rest current hrest
    rw [undo?, (past_run hrest).trans (hown hnoted)]
    rfl

/-- Nine tenths of a second later, typing belongs to the burst; with the clock set back it does
not. -/
example (a b c : Snapshot) :
    ((new {}).run [.record a .typing 0, .redo b, .record b .typing 900000000,
      .record c .typing 0]).past = [c, a] := rfl

end Stencil.History
