import Stencil.Text.LastSplit

/-!
# Placeholder names

The name between the braces of a placeholder is a *base key*, which says what is to be filled in,
and perhaps a *group*: a run of digits after the last underscore. Placeholders with the same base
key and the same group are linked and share one value.

* `Name.split` — the base key and group in a text, so that `color_1` is `color` in group `1`, while
  `_1`, `color_` and `color_bg` have no group;
* `Name.join` — the text of a base key and a group.
-/

namespace Stencil.Placeholder

open Text

/-- A base key and perhaps a group. -/
structure Name where
  /-- What is to be filled in. -/
  base : String
  /-- The group in which occurrences of the base key share a value. -/
  group : Option String
deriving DecidableEq, Repr

namespace Name

/-- The digits after the last underscore are a group, if something stands before it. -/
def ofChars (cs : List Char) : Name :=
  match splitLast? '_' cs with
  | some (base, suffix) =>
    if !base.isEmpty && !suffix.isEmpty && suffix.all Char.isDigit then
      ⟨String.ofList base, some (String.ofList suffix)⟩
    else ⟨String.ofList cs, none⟩
  | none => ⟨String.ofList cs, none⟩

/-- The base key and group in a text. -/
def split (s : String) : Name := ofChars s.toList

/-- The text of a base key and a group. -/
def join (n : Name) : String :=
  match n.group with
  | some group => n.base ++ "_" ++ group
  | none => n.base

end Name

end Stencil.Placeholder
