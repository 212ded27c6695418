import Stencil.Text.LastSplit
import Stencil.Text.Numeral

/-!
# Occurrence keys

A base key may occur in a text more than once. The occurrences are numbered from zero, and the key
`color-3` addresses the fourth one of `color`.

* `occurrenceKey` — the key of a base key and a number;
* `splitOccurrence?` — the base key and number in a key, where the number may be spelled with
  leading zeros and one plus sign;
* `splitOccurrenceKey?` — the same for numbers that fit a machine word, the only ones a stored key
  is taken apart for.
-/

namespace Stencil.Placeholder

open Text

/-- The key of the occurrence of `base` with number `index`. -/
def occurrenceKey (base : String) (index : Nat) : String := base ++ "-" ++ decimal index

/-- The base key and number around the last dash, if neither is missing. -/
def splitOccurrence? (key : String) : Option (String × Nat) :=
  match splitLast? '-' key.toList with
  | some (base, index) =>
    if base.isEmpty then none else (readNatural? index).map (String.ofList base, ·)
  | none => none

/-- Numbers of occurrences are below this. -/
def indexLimit : Nat := Number.twoTo 64

/-- The base key and number in a key whose number is below `indexLimit`. -/
def splitOccurrenceKey? (key : String) : Option (String × Nat) :=
  (splitOccurrence? key).filter (·.2 < indexLimit)

end Stencil.Placeholder
