import Stencil.Placeholder.Rewriting
import Stencil.Text.Numeral

/-!
# Changing the group of a token

The token under a cursor is put into a group, or taken out of its group, by rewriting its name.

* `assignGroup?` and `removeGroup?` — the text after the change, and where the cursor ends up.
-/

namespace Stencil.Placeholder

open Text

/-- What a change of group does to a text. -/
structure GroupEdit where
  /-- The text after the change. -/
  text : String
  /-- The cursor after the change. -/
  cursor : Nat
  /-- The key of the changed token. -/
  key : String
  /-- The group of the token after the change. -/
  group : Option String
deriving DecidableEq, Repr

/-- A cursor up to the start of the name stays, one inside the name goes to the end of the new
name, and one behind it moves along with the text. -/
def moveCursor (name : Span) (newSize cursor : Nat) : Nat :=
  if cursor ≤ name.start then cursor
  else if cursor < name.stop then name.start + newSize
  else cursor + newSize - name.size

/-- Give one token of a text another group. -/
def Parsed.regroup (p : Parsed) (cursor : Nat) (t : Token) (group : Option String) : GroupEdit :=
  let name := Name.join ⟨t.baseKey, group⟩
  { text := p.rewrite fun u => if u.start = t.start then some name else none
    cursor := moveCursor t.nameSpan (byteLength name.toList) cursor
    key := t.key
    group }

/-- Put the token under the cursor into a group; there is none if the cursor is in no token. -/
def assignGroup? (text : String) (cursor group : Nat) : Option GroupEdit :=
  let p := Parsed.ofText text
  (p.tokenAt? cursor).map fun t => p.regroup cursor t (some (decimal group))

/-- Take the token under the cursor out of its group; there is none if the cursor is in no token or
the token is in no group. -/
def removeGroup? (text : String) (cursor : Nat) : Option GroupEdit :=
  let p := Parsed.ofText text
  (p.tokenAt? cursor).bind fun t => t.group?.map fun _ => p.regroup cursor t none

end Stencil.Placeholder
