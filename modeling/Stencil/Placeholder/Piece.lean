import Stencil.Placeholder.Slot

/-!
# Pieces of a text

A text is a row of *pieces*: literal runs and slots. A slot is taken wherever one begins, from left
to right; every other character is literal, and neighbouring literal characters form one run.

* `scan` — the pieces of a text;
* `flatten_scan` — the pieces, written one after another, are the text.
-/

namespace Stencil.Placeholder

/-- A literal run or a slot. -/
inductive Piece where
  /-- Characters that stand for themselves. -/
  | literal (run : List Char)
  /-- A placeholder. -/
  | slot (s : Slot)
deriving DecidableEq, Repr

namespace Piece

/-- A piece as written. -/
def text : Piece → List Char
  | literal run => run
  | slot s => s.text

/-- The text of a row of pieces. -/
def flatten (pieces : List Piece) : List Char := pieces.flatMap text

/-- Close a run, given backwards, in front of pieces in reverse order. -/
def close (run : List Char) (done : List Piece) : List Piece :=
  if run.isEmpty then done else literal run.reverse :: done

end Piece

/-- The pieces of a text after an open run and pieces already found, both in reverse order. -/
def scanFrom (run : List Char) (done : List Piece) : List Char → List Piece
  | [] => (Piece.close run done).reverse
  | c :: cs =>
    match _ : Slot.atHead? (c :: cs) with
    | some (s, after) => scanFrom [] (.slot s :: Piece.close run done) after
    | none => scanFrom (c :: run) done cs
termination_by cs => cs.length
decreasing_by
  · exact Slot.length_lt_of_atHead? (by assumption)
  · simp

/-- The pieces of a text. -/
def scan (cs : List Char) : List Piece := scanFrom [] [] cs

namespace Piece

@[simp] theorem text_literal (run : List Char) : (literal run).text = run := rfl

@[simp] theorem text_slot (s : Slot) : (slot s).text = s.text := rfl

@[simp] theorem flatten_nil : flatten [] = [] := rfl

@[simp] theorem flatten_cons (p : Piece) (ps : List Piece) :
    flatten (p :: ps) = p.text ++ flatten ps := rfl

@[simp] theorem flatten_append (ps qs : List Piece) :
    flatten (ps ++ qs) = flatten ps ++ flatten qs := by simp [flatten]

theorem flatten_close (run : List Char) (done : List Piece) :
    flatten (close run done).reverse = flatten done.reverse ++ run.reverse := by
  unfold close
  split
  · rename_i h; simp [List.isEmpty_iff.1 h]
  · simp [text]

end Piece

theorem flatten_scanFrom (run : List Char) (done : List Piece) (cs : List Char) :
    Piece.flatten (scanFrom run done cs) = Piece.flatten done.reverse ++ run.reverse ++ cs := by
  fun_induction scanFrom run done cs with
  | case1 run done => simp [Piece.flatten_close]
  | case2 run done c cs s after h ih =>
    rw [ih, List.reverse_cons, Piece.flatten_append, Piece.flatten_close,
      ← Slot.text_append_of_atHead? h]
    simp [Piece.text]
  | case3 run done c cs h ih => rw [ih]; simp

/-- The pieces of a text, written one after another, are the text. -/
@[simp] theorem flatten_scan (cs : List Char) : Piece.flatten (scan cs) = cs := by
  simp [scan, flatten_scanFrom]

end Stencil.Placeholder
