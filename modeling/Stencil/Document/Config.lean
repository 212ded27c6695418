import Stencil.Config
import Stencil.Document.Record
import Stencil.Text.Numeral

/-!
# Settings in documents

Settings are a record with the sections `history`, `reconcile` and `locale`, each of them a record
itself. Whatever is missing has its default.
-/

namespace Stencil

/-- Settings are natural numbers below this. -/
def settingLimit : Nat := Number.twoTo 64

/-- A natural number below `settingLimit`. -/
def settingOfJson? : Json → Option Nat
  | .int n => if 0 ≤ n ∧ n < settingLimit then some n.toNat else none
  | _ => none

open Json (Surplus)

/-- The settings of a record. -/
def HistoryConfig.ofJson? (surplus : Surplus) (v : Json) : Option HistoryConfig := do
  let fields ← v.fields? ["limit", "coalesce_ms"] 0 surplus
  let config : HistoryConfig := {}
  some
    { limit := ← Json.fieldOr? fields "limit" config.limit settingOfJson?
      coalesceMs := ← Json.fieldOr? fields "coalesce_ms" config.coalesceMs settingOfJson? }

/-- The settings of a record. -/
def ReconcileConfig.ofJson? (surplus : Surplus) (v : Json) : Option ReconcileConfig := do
  let fields ← v.fields? ["backup_suffix", "backup_label", "rename_suffix"] 0 surplus
  let config : ReconcileConfig := {}
  some
    { backupSuffix := ← Json.fieldOr? fields "backup_suffix" config.backupSuffix Json.string?
      backupLabel := ← Json.fieldOr? fields "backup_label" config.backupLabel Json.string?
      renameSuffix := ← Json.fieldOr? fields "rename_suffix" config.renameSuffix Json.string? }

/-- The settings of a record. -/
def LocaleConfig.ofJson? (surplus : Surplus) (v : Json) : Option LocaleConfig := do
  let fields ← v.fields? ["language"] 0 surplus
  let config : LocaleConfig := {}
  some { language := ← Json.fieldOr? fields "language" config.language Json.string? }

namespace Config

/-- The settings of a record. -/
def ofJson? (surplus : Surplus) (v : Json) : Option Config := do
  let fields ← v.fields? ["history", "reconcile", "locale"] 0 surplus
  some
    { history := ← Json.fieldOr? fields "history" {} (HistoryConfig.ofJson? surplus)
      reconcile := ← Json.fieldOr? fields "reconcile" {} (ReconcileConfig.ofJson? surplus)
      locale := ← Json.fieldOr? fields "locale" {} (LocaleConfig.ofJson? surplus) }

/-- Settings as a value of a document. -/
def toJson (c : Config) : Json :=
  .obj [
    ("history", .obj [("limit", .int c.history.limit), ("coalesce_ms", .int c.history.coalesceMs)]),
    ("reconcile", .obj [("backup_suffix", .str c.reconcile.backupSuffix),
      ("backup_label", .str c.reconcile.backupLabel),
      ("rename_suffix", .str c.reconcile.renameSuffix)]),
    ("locale", .obj [("language", .str c.locale.language)])]

end Config

end Stencil
