import Stencil.Text.Numeral

/-!
# Notes of a reconciliation

What the user is told about conflicts, one line for each.
-/

namespace Stencil.Reconcile

/-- A conflict and how it was resolved. -/
inductive Note where
  /-- A system bank came under another key. -/
  | keyRenamed (key newKey : String)
  /-- The new version of an edited template was kept under another id. -/
  | backedUp (name id backupId : String)
  /-- An edited bank was kept, perhaps with new options and with its own label and category. -/
  | bankKept (key : String) (added : Nat) (headerKept : Bool)
deriving DecidableEq

/-- What the user is told. -/
def Note.message : Note → String
  | keyRenamed key newKey =>
    "Bank key \"" ++ key ++ "\" is already used by one of your banks; " ++
      "the system bank was imported as \"" ++ newKey ++ "\""
  | backedUp name id backupId =>
    "Template \"" ++ name ++ "\" (" ++ id ++
      ") has local edits; the new system version was saved as \"" ++ backupId ++ "\""
  | bankKept key added headerKept =>
    "Bank \"" ++ key ++ "\" has local edits" ++
      (if added = 0 then ""
        else "; added " ++ Text.decimal added ++ " new system option(s)") ++
      if headerKept then "; your label and category were kept" else ""

end Stencil.Reconcile
