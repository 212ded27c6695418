import Stencil.Config
import Stencil.Template.Basic

/-!
# Edit history

Steps that can be undone and redone. A step is a snapshot of what it changed: the content of a
template in all languages and its selections, always together. Typing within a short time belongs to
one step, the *burst*, until something else happens.

* `History.record` — a new step, unless it belongs to the open burst;
* `History.undo?`, `History.redo?` — the snapshot to go back or forward to;
* `History.endBurst`, `History.reset` — the end of a burst, and of the whole history.
-/

namespace Stencil

/-- What a step changes. -/
structure Snapshot where
  /-- The content in all languages. -/
  content : Localized
  /-- The selections. -/
  selections : Selections

namespace Snapshot

/-- The snapshot of a template. -/
def of (t : Template) : Snapshot := ⟨t.content, t.selections⟩

/-- The template as it was in the snapshot. -/
def restore (s : Snapshot) (t : Template) : Template :=
  { t with content := s.content, selections := s.selections }

/-- Snapshots are alike when content and selections are. -/
instance : Setoid Snapshot where
  r s t := s.content ≈ t.content ∧ s.selections ≈ t.selections
  iseqv :=
    ⟨fun _ => ⟨Setoid.refl _, Setoid.refl _⟩, fun h => ⟨Setoid.symm h.1, Setoid.symm h.2⟩,
      fun h k => ⟨Setoid.trans h.1 k.1, Setoid.trans h.2 k.2⟩⟩

instance (s t : Snapshot) : Decidable (s ≈ t) :=
  decidable_of_iff (s.content ≈ t.content ∧ s.selections ≈ t.selections) Iff.rfl

end Snapshot

/-- What the user did. -/
inductive EditKind where
  /-- Keystrokes, which may belong together. -/
  | typing
  /-- Pasting. -/
  | paste
  /-- Inserting a placeholder. -/
  | insertion
  /-- Changing the group of a placeholder. -/
  | grouping
  /-- Picking a value. -/
  | selection
deriving DecidableEq

/-- Steps that can be undone and redone. -/
structure History where
  /-- Snapshots to go back to, the latest first. -/
  past : List Snapshot := []
  /-- Snapshots to go forward to, the next first. -/
  future : List Snapshot := []
  /-- The greatest number of steps that can be undone. -/
  limit : Nat
  /-- Typing within this many milliseconds of the last typing belongs to the burst. -/
  coalesceMs : Nat
  /-- The time of the last typing, in nanoseconds, while a burst is open. -/
  burst : Option Int := none

namespace History

/-- A history without steps; it can hold at least one. -/
def new (config : HistoryConfig) : History :=
  { limit := max config.limit 1, coalesceMs := config.coalesceMs }

/-- The whole milliseconds from one time to another; fractions are dropped. -/
def elapsedMs (last now : Int) : Int := (now - last).tdiv 1000000

/-- Typing at `now` belongs to the open burst. -/
def inBurst (h : History) (now : Int) : Bool :=
  match h.burst with
  | some last =>
    let elapsed := elapsedMs last now
    0 ≤ elapsed && elapsed ≤ h.coalesceMs && !h.past.isEmpty
  | none => false

/-- A new step that began at `before`; the oldest is dropped if there are too many. -/
def push (h : History) (before : Snapshot) : History :=
  { h with past := (before :: h.past).take h.limit }

/-- Note a change that began at `before`. The answer says whether it is a step of its own. -/
def record (h : History) (before : Snapshot) (kind : EditKind) (now : Int) : Bool × History :=
  let h' := { h with future := [], burst := if kind = .typing then some now else none }
  if kind = .typing && h.inBurst now then (false, h') else (true, h'.push before)

/-- Close the open burst, so that the next typing is a new step. -/
def endBurst (h : History) : History := { h with burst := none }

/-- Go back from `current`: the snapshot to restore. -/
def undo? (h : History) (current : Snapshot) : Option (Snapshot × History) :=
  match h.past with
  | previous :: past =>
    some (previous, { h with past, future := current :: h.future, burst := none })
  | [] => none

/-- Go forward from `current`: the snapshot to restore. -/
def redo? (h : History) (current : Snapshot) : Option (Snapshot × History) :=
  match h.future with
  | next :: future =>
    some (next, { h with past := current :: h.past, future, burst := none })
  | [] => none

/-- Drop all steps. -/
def reset (h : History) : History := { h with past := [], future := [], burst := none }

/-- There is a step to undo. -/
def canUndo (h : History) : Bool := !h.past.isEmpty

/-- There is a step to redo. -/
def canRedo (h : History) : Bool := !h.future.isEmpty

/-- The number of steps that can be undone. -/
def undoCount (h : History) : Nat := h.past.length

end History

end Stencil
