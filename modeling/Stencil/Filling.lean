import Stencil.Library.Basic
import Stencil.Placeholder.Parsed

/-!
# Filling in placeholders

A placeholder shows the value picked for its occurrence, or else the default of its base key. A
value that is empty in the language of the reader counts as missing, and a placeholder without a
value shows itself as it is written.

* `resolveOccurrence?` — the string shown for an occurrence;
* `render` — a text with all its placeholders filled in;
* `Selections.prune` — selections without those that no placeholder reads.
-/

namespace Stencil

open Placeholder

/-- The string shown for an occurrence: the first nonempty one of its selection and the default of
its base key. -/
def resolveOccurrence? (selections : Selections) (defaults : Defaults)
    (key base language : String) : Option String :=
  (((selections.get? key).toList ++ (defaults.get? base).toList).map (·.resolve language)).find?
    (· ≠ "")

/-- A segment as the reader sees it. -/
def renderSegment (selections : Selections) (defaults : Defaults) (language : String) :
    Segment → List Char
  | .literal run _ => run
  | .token t =>
    match resolveOccurrence? selections defaults t.key t.baseKey language with
    | some value => value.toList
    | none => t.slot.text

/-- A text with its placeholders filled in. -/
def render (text : String) (selections : Selections) (defaults : Defaults) (language : String) :
    String :=
  String.ofList
    ((Parsed.ofText text).segments.flatMap (renderSegment selections defaults language))

/-- The selections under keys that address a placeholder of a text. -/
def Selections.prune (selections : Selections) (p : Parsed) : Selections :=
  selections.filter fun key _ => (p.find? key).isSome

end Stencil
