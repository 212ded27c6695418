/-!
# Commands that can fail

A command works on a state. It answers or fails, and in both cases it leaves a state: what it has
changed before it fails stays changed. Commands are written with `do`; a check is an `Except`.

* `Attempt` — a command;
* `Attempt.left` — the state that it leaves;
* `Attempt.answer`, `Attempt.after` — its answer with the state after it, and the state alone, for
  those who have no use for what a failed command leaves;
* `Attempt.Atomic` — a command that changes nothing when it fails, with a lemma for each way to make
  a command.
-/

namespace Stencil

/-- A command on a state. -/
abbrev Attempt (σ ε α : Type) := EStateM ε σ α

namespace Attempt

variable {σ ε α β : Type}

instance : MonadLift (Except ε) (EStateM ε σ) := ⟨MonadExcept.ofExcept⟩

/-- A command whose answer does not matter. -/
def silent (a : Attempt σ ε α) : Attempt σ ε Unit := do
  let _ ← a
  return ()

/-- The state that a command leaves. -/
def left (a : Attempt σ ε α) (s : σ) : σ :=
  match a.run s with
  | .ok _ s' => s'
  | .error _ s' => s'

/-- The answer of a command with the state after it, or why it failed. -/
def answer (a : Attempt σ ε α) (s : σ) : Except ε (α × σ) :=
  match a.run s with
  | .ok x s' => .ok (x, s')
  | .error e _ => .error e

/-- The state after a command, or why it failed. -/
def after (a : Attempt σ ε α) (s : σ) : Except ε σ := (a.answer s).map Prod.snd

/-! ## Runs -/

variable {a a' : Attempt σ ε α} {f : α → Attempt σ ε β} {g : σ → Attempt σ ε β} {r : Except ε α}
  {s s' : σ} {x : α} {y : β} {e : ε} {c : Prop} [Decidable c]

theorem run_throw : (throw e : Attempt σ ε α).run s = .error e s := rfl

theorem run_get_bind : (get >>= g).run s = (g s).run s := rfl

theorem left_get_bind : (get >>= g).left s = (g s).left s := rfl

theorem answer_get_bind : (get >>= g).answer s = (g s).answer s := rfl

/-- A check stands before what follows it. -/
theorem run_lift_bind_eq_ok_iff :
    (liftM r >>= f).run s = .ok y s' ↔ ∃ x, r = .ok x ∧ (f x).run s = .ok y s' := by
  cases r with
  | error e => exact iff_of_false nofun nofun
  | ok x => exact ⟨fun h => ⟨x, rfl, h⟩, fun ⟨_, hx, h⟩ => Except.ok.inj hx ▸ h⟩

/-- What a command refuses at once is not so when it is carried out. -/
theorem run_throw_ite_eq_ok_iff :
    (if c then throw e else a).run s = .ok x s' ↔ ¬ c ∧ a.run s = .ok x s' := by
  by_cases hc : c <;> simp [hc, run_throw]

theorem run_ite_throw_eq_ok_iff :
    (if c then a else throw e).run s = .ok x s' ↔ c ∧ a.run s = .ok x s' := by
  by_cases hc : c <;> simp [hc, run_throw]

theorem run_silent_eq_ok_iff {y : Unit} :
    a.silent.run s = .ok y s' ↔ ∃ x, a.run s = .ok x s' := by
  rw [silent, EStateM.run_bind]
  cases a.run s <;> simp

theorem answer_eq_ok_iff : a.answer s = .ok (x, s') ↔ a.run s = .ok x s' := by
  rw [answer]
  cases a.run s <;> simp

theorem left_congr (h : a.run s = a'.run s') : a.left s = a'.left s' := by
  rw [left, h, left]

theorem answer_of_run_error (h : a.run s = .error e s') : a.answer s = .error e := by
  rw [answer, h]

theorem left_of_run (h : a.run s = .ok x s') : a.left s = s' := by
  rw [left, h]

theorem left_of_answer (h : a.answer s = .ok (x, s')) : a.left s = s' :=
  left_of_run (answer_eq_ok_iff.1 h)

theorem left_of_run_error (h : a.run s = .error e s') : a.left s = s' := by
  rw [left, h]

/-! ## Commands that change nothing when they fail -/

/-- A command changes nothing when it fails. -/
def Atomic (a : Attempt σ ε α) : Prop := ∀ s e s', a.run s = .error e s' → s' = s

theorem atomic_throw : (throw e : Attempt σ ε α).Atomic := by
  rintro s e s' ⟨⟩
  rfl

theorem atomic_set : (set s : Attempt σ ε PUnit).Atomic := nofun

theorem atomic_set_pure : ((do set s; pure x) : Attempt σ ε α).Atomic := nofun

theorem atomic_modify (u : σ → σ) : (modify u : Attempt σ ε PUnit).Atomic := nofun

namespace Atomic

theorem get_bind (h : ∀ s, (g s).Atomic) : (get >>= g).Atomic := fun s => h s s

/-- A check changes nothing. -/
theorem lift_bind (h : ∀ x, (f x).Atomic) : (liftM r >>= f).Atomic := by
  cases r with
  | error e => exact atomic_throw
  | ok x => exact h x

theorem ite (h : a.Atomic) (h' : a'.Atomic) : (if c then a else a').Atomic := by
  split
  · exact h
  · exact h'

theorem silent (h : a.Atomic) : a.silent.Atomic := by
  intro s e s' hrun
  rw [Attempt.silent, EStateM.run_bind] at hrun
  cases ha : a.run s with
  | ok x t => simp [ha] at hrun
  | error e t =>
    rw [ha] at hrun
    cases hrun
    exact h s _ _ ha

/-- What holds of a state, and of all that an atomic command makes of it when it is carried out,
holds of what the command leaves. -/
theorem left_cases {motive : σ → Prop} (h : a.Atomic) (hfailed : motive s)
    (hdone : ∀ x s', a.run s = .ok x s' → motive s') : motive (a.left s) := by
  rw [left]
  cases hrun : a.run s with
  | ok x s' => exact hdone x s' hrun
  | error e s' => exact h s e s' hrun ▸ hfailed

end Atomic

end Attempt

end Stencil
