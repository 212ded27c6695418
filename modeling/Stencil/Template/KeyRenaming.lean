import Stencil.Placeholder.Rewriting
import Stencil.Template.Basic

/-!
# Renamed keys in a template

When base keys get new names, a template follows in three places: the names in its content in every
language, the occurrence keys of its selections, and selections under a bare base key.
-/

namespace Stencil

open Placeholder

/-- The key of a selection after base keys have been renamed. -/
def renameSelectionKey (renames : Renames) (key : String) : String :=
  match renames.get? key with
  | some base => base
  | none =>
    match splitOccurrenceKey? key with
    | some (base, index) => (renames.get? base).elim key fun base => occurrenceKey base index
    | none => key

/-- The template after base keys have been renamed. -/
def Template.renameKeys (renames : Renames) (t : Template) : Template :=
  if renames.isEmpty then t
  else
    { t with
      content := t.content.map (renameBases renames)
      selections := t.selections.mapKeys (renameSelectionKey renames) }

@[simp] theorem Template.id_renameKeys (renames : Renames) (t : Template) :
    (t.renameKeys renames).id = t.id := by
  unfold renameKeys
  split <;> rfl

end Stencil
