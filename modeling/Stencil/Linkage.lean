import Stencil.Placeholder.Parsed
import Stencil.Template.Basic

/-!
# Linked selections

Occurrences of a base key in the same group share one value. A value picked for one of them is
picked for all; and when groups have been formed or changed by an edit, each gets the value of its
first member that has one.

* `Selections.propagate` — a value for an occurrence and all linked with it;
* `Selections.syncGroup` — one value for a group, which an occurrence may just have joined;
* `Selections.syncAll` — one value for each group of a text.
-/

namespace Stencil

open Placeholder

/-- The keys of the occurrences that share a value with the one a key addresses; a key that
addresses nothing stands for itself. -/
def Placeholder.Parsed.linkedKeys (p : Parsed) (key : String) : List String :=
  match p.find? key with
  | some t => (p.linked t).map Token.key
  | none => [key]

/-- The groups in a text, each once, in the order in which they begin. -/
def Placeholder.Parsed.groups (p : Parsed) : List (String × String) :=
  (p.tokens.toList.filterMap fun t => t.group?.map (t.baseKey, ·)).eraseDups

namespace Selections

/-- Pick a value for each of some keys. -/
def setAll (selections : Selections) (keys : List String) (value : Localized) : Selections :=
  selections.insertAll (keys.map (·, value))

/-- Pick a value for an occurrence and for all linked with it. -/
def propagate (selections : Selections) (p : Parsed) (key : String) (value : Localized) :
    Selections :=
  selections.setAll (p.linkedKeys key) value

/-- The value of a group: that of the first member with one, where the member that just joined
counts last. -/
def groupValue? (selections : Selections) (members : List String) (joiner : Option String) :
    Option Localized :=
  ((members.filter (some · ≠ joiner)) ++ joiner.toList).findSome? selections.get?

/-- Pick the value of a group for all its members. -/
def syncGroup (selections : Selections) (p : Parsed) (base group : String)
    (joiner : Option String) : Option Localized × Selections :=
  let members := (p.members base group).map Token.key
  match selections.groupValue? members joiner with
  | some value => (some value, selections.setAll members value)
  | none => (none, selections)

/-- Pick the value of each group for all its members. -/
def syncAll (selections : Selections) (p : Parsed) : Selections :=
  p.groups.foldl (fun s g => (s.syncGroup p g.1 g.2 none).2) selections

end Selections

end Stencil
