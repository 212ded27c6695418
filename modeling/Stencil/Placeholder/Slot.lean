import Stencil.Text.Blank

/-!
# Slots

A *slot* is the written form of a placeholder: a name between double braces, perhaps with white
space around it. What stands between the braces holds no brace and no line break, and is not blank.

* `Slot.text` — the slot as written;
* `Slot.atHead?` — the slot a text begins with, and what follows it.
-/

namespace Stencil.Placeholder

open Text

/-- What stands between double braces: a name and the white space around it. -/
structure Slot where
  /-- The white space before the name. -/
  lead : List Char
  /-- The name. -/
  name : List Char
  /-- The white space after the name. -/
  trail : List Char
deriving DecidableEq, Repr

namespace Slot

/-- A character that may stand between the braces. -/
def isInner (c : Char) : Bool := c != '\x7b' && c != '\x7d' && c != '\n'

/-- Everything between the braces. -/
def inner (s : Slot) : List Char := s.lead ++ s.name ++ s.trail

/-- The slot as written. -/
def text (s : Slot) : List Char := ['\x7b', '\x7b'] ++ s.inner ++ ['\x7d', '\x7d']

/-- The slot with the given characters between its braces. -/
def ofInner (cs : List Char) : Slot :=
  let rest := trimStart cs
  ⟨cs.takeWhile isSpace, trimEnd rest, (rest.reverse.takeWhile isSpace).reverse⟩

/-- The slot a text begins with, and what follows it. -/
def atHead? : List Char → Option (Slot × List Char)
  | '\x7b' :: '\x7b' :: rest =>
    match rest.dropWhile isInner with
    | '\x7d' :: '\x7d' :: after =>
      if (rest.takeWhile isInner).all isSpace then none
      else some (ofInner (rest.takeWhile isInner), after)
    | _ => none
  | _ => none

/-- The parts of a slot make up what stands between its braces. -/
@[simp] theorem inner_ofInner (cs : List Char) : (ofInner cs).inner = cs := by
  simp [inner, ofInner, List.append_assoc, trimEnd_append_takeWhile, takeWhile_append_trimStart]

/-- A slot at the head of a text and what follows it make up the text. -/
theorem text_append_of_atHead? {cs after : List Char} {s : Slot}
    (h : atHead? cs = some (s, after)) : s.text ++ after = cs := by
  unfold atHead? at h
  split at h
  · rename_i rest
    split at h
    · rename_i tail hdrop
      split at h
      · simp at h
      · obtain ⟨rfl, rfl⟩ := by simpa using h
        have whole := List.takeWhile_append_dropWhile (p := isInner) (l := rest)
        rw [hdrop] at whole
        simp [text, whole]
    · simp at h
  · simp at h

/-- What follows a slot is shorter than the whole. -/
theorem length_lt_of_atHead? {cs after : List Char} {s : Slot}
    (h : atHead? cs = some (s, after)) : after.length < cs.length := by
  rw [← text_append_of_atHead? h]
  simp [text]
  omega

end Slot

end Stencil.Placeholder
