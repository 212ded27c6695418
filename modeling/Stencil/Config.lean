/-!
# Configuration

How long a history is kept, what copies and imported keys are called, and which language a session
starts in. Every setting has a default.
-/

namespace Stencil

/-- Settings of the edit history. -/
structure HistoryConfig where
  /-- The greatest number of steps that can be undone. -/
  limit : Nat := 500
  /-- Typing within this many milliseconds of the last typing belongs to the same step. -/
  coalesceMs : Nat := 1000
deriving DecidableEq

/-- Settings of reconciliation. -/
structure ReconcileConfig where
  /-- What is added to the id of a template for a copy of its new version. -/
  backupSuffix : String := "_backup"
  /-- What is added to the name of the copy. -/
  backupLabel : String := "(backup)"
  /-- What is added to a bank key that is taken. -/
  renameSuffix : String := "system"
deriving DecidableEq

/-- Settings of languages. -/
structure LocaleConfig where
  /-- The language a session starts in. -/
  language : String := "cn"
deriving DecidableEq

/-- All settings. -/
structure Config where
  /-- Settings of the edit history. -/
  history : HistoryConfig := {}
  /-- Settings of reconciliation. -/
  reconcile : ReconcileConfig := {}
  /-- Settings of languages. -/
  locale : LocaleConfig := {}
deriving DecidableEq

end Stencil
