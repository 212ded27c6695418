/-!
# Blank text

White space in the sense of the Unicode property `White_Space`, and the two questions asked about
it everywhere: what is left of a text without the white space at its ends, and whether anything is
left at all.
-/

namespace Stencil.Text

/-- The Unicode property `White_Space`. -/
def isSpace (c : Char) : Bool :=
  let n := c.toNat
  (0x9 ≤ n && n ≤ 0xD) || n == 0x20 || n == 0x85 || n == 0xA0 || n == 0x1680 ||
    (0x2000 ≤ n && n ≤ 0x200A) || n == 0x2028 || n == 0x2029 || n == 0x202F || n == 0x205F ||
    n == 0x3000

/-- What follows the white space at the start. -/
def trimStart (cs : List Char) : List Char := cs.dropWhile isSpace

/-- What comes before the white space at the end. -/
def trimEnd (cs : List Char) : List Char := (cs.reverse.dropWhile isSpace).reverse

/-- A text without the white space at its two ends. -/
def trim (s : String) : String := String.ofList (trimEnd (trimStart s.toList))

/-- Nothing but white space. -/
def isBlank (s : String) : Bool := s.toList.all isSpace

/-- The white space at the start and the rest make up the whole. -/
theorem takeWhile_append_trimStart (cs : List Char) :
    cs.takeWhile isSpace ++ trimStart cs = cs :=
  List.takeWhile_append_dropWhile

/-- The rest and the white space at the end make up the whole. -/
theorem trimEnd_append_takeWhile (cs : List Char) :
    trimEnd cs ++ (cs.reverse.takeWhile isSpace).reverse = cs := by
  rw [trimEnd, ← List.reverse_append, List.takeWhile_append_dropWhile, List.reverse_reverse]

end Stencil.Text
