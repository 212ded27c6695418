import Stencil.Placeholder.Parsed

/-!
# Rewriting names

New names are put into the tokens of a text; literal runs and the white space between the braces
stay as they are.

* `Parsed.rewrite` — the text with the names that a function gives to some of the tokens;
* `renameBases` — the text with other base keys and the same groups;
* `Renames` — a list of old and new keys, of which the last entry for an old key counts.
-/

namespace Stencil.Placeholder

/-- A slot with another name in it. -/
def Slot.withName (s : Slot) (name : String) : Slot := { s with name := name.toList }

/-- A segment as written, with a new name if it is a token that gets one. -/
def Segment.rewrite (newName : Token → Option String) : Segment → List Char
  | .literal run _ => run
  | .token t =>
    match newName t with
    | some name => (t.slot.withName name).text
    | none => t.slot.text

/-- The text with new names in the tokens that get one. -/
def Parsed.rewrite (p : Parsed) (newName : Token → Option String) : String :=
  String.ofList (p.segments.flatMap (Segment.rewrite newName))

/-- Old keys and the new keys they turn into. -/
abbrev Renames := List (String × String)

/-- The new key of an old one. -/
def Renames.get? (renames : Renames) (key : String) : Option String :=
  renames.reverse.lookup key

/-- The text with renamed base keys; groups stay. -/
def renameBases (renames : Renames) (text : String) : String :=
  (Parsed.ofText text).rewrite fun t =>
    (renames.get? t.baseKey).map fun base => Name.join ⟨base, t.group?⟩

end Stencil.Placeholder
