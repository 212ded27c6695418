/-!
# Offsets in UTF-8

Places in a text are counted in the bytes of its UTF-8 form. Here are the length of a run of
characters in that measure, and the cut of a run at the last character boundary before an offset.
-/

namespace Stencil.Text

/-- The length in bytes. -/
def byteLength (cs : List Char) : Nat := cs.foldl (fun n c => n + c.utf8Size) 0

/-- The longest start of at most `offset` bytes, reversed before `taken`, and the rest. -/
def cutFrom (taken : List Char) (offset : Nat) : List Char → List Char × List Char
  | [] => (taken.reverse, [])
  | c :: cs =>
    if c.utf8Size ≤ offset then cutFrom (c :: taken) (offset - c.utf8Size) cs
    else (taken.reverse, c :: cs)

/-- A run cut at the last character boundary that is not past `offset`. -/
def cutAt (offset : Nat) (cs : List Char) : List Char × List Char := cutFrom [] offset cs

theorem foldl_byteLength (n : Nat) (cs : List Char) :
    cs.foldl (fun n c => n + c.utf8Size) n = n + byteLength cs := by
  induction cs generalizing n with
  | nil => rfl
  | cons c cs ih =>
    rw [byteLength, List.foldl_cons, List.foldl_cons, ih, ih (0 + c.utf8Size)]
    omega

@[simp] theorem byteLength_nil : byteLength [] = 0 := rfl

@[simp] theorem byteLength_cons (c : Char) (cs : List Char) :
    byteLength (c :: cs) = c.utf8Size + byteLength cs := by
  rw [byteLength, List.foldl_cons, foldl_byteLength]
  omega

@[simp] theorem byteLength_append (cs ds : List Char) :
    byteLength (cs ++ ds) = byteLength cs + byteLength ds := by
  induction cs with
  | nil => simp
  | cons c cs ih => simp [ih, Nat.add_assoc]

/-- The length is that of the UTF-8 form. -/
theorem byteLength_eq_utf8ByteSize (cs : List Char) :
    byteLength cs = (String.ofList cs).utf8ByteSize := by
  induction cs with
  | nil => simp [String.ofList_nil]
  | cons c cs ih =>
    rw [byteLength_cons, ih, ← List.singleton_append, String.ofList_append,
      String.utf8ByteSize_append, ← String.singleton_eq_ofList, String.utf8ByteSize_singleton]

theorem byteLength_toList (s : String) : byteLength s.toList = s.utf8ByteSize := by
  rw [byteLength_eq_utf8ByteSize, String.ofList_toList]

theorem cutFrom_append (taken : List Char) (offset : Nat) (cs : List Char) :
    (cutFrom taken offset cs).1 ++ (cutFrom taken offset cs).2 = taken.reverse ++ cs := by
  induction cs generalizing taken offset with
  | nil => simp [cutFrom]
  | cons c cs ih =>
    unfold cutFrom
    split
    · rw [ih]; simp
    · rfl

/-- A cut loses nothing. -/
theorem cutAt_append (offset : Nat) (cs : List Char) :
    (cutAt offset cs).1 ++ (cutAt offset cs).2 = cs := by
  simpa [cutAt] using cutFrom_append [] offset cs

end Stencil.Text
