import Mathlib.Data.List.TakeWhile
import Stencil.Placeholder.Piece

/-!
# Rows of pieces

A text is taken apart into literal runs and slots in one way only: the rows of pieces in which no
slot hides are exactly those that a scan gives.

* `Slot.Proper` — a slot that is read as it is written, and `Slot.atHead?_eq_some_iff`;
* `Slot.Proper.append_ne_opening` — no slot begins inside another one, which is why slots never
  overlap and why one that begins in a literal run ends there;
* `Row` — proper slots and runs without slots, no two runs next to each other;
* `row_scan`, `scan_flatten` — a scan gives a row, and every row is the scan of its text;
* `exists_split_of_row` — every slot that stands in a text is a piece of its row.
-/

namespace Stencil.Placeholder

open Text

/-! ## Slots -/

namespace Slot

/-- The slot is read back as it is written: what stands between its braces may stand there, is not
blank, and is taken apart into the parts of the slot. -/
structure Proper (s : Slot) : Prop where
  isInner : ∀ c ∈ s.inner, isInner c
  notBlank : ∃ c ∈ s.inner, ¬ isSpace c
  parts : ofInner s.inner = s

variable {s : Slot} {cs after : List Char}

theorem text_eq (s : Slot) : s.text = '\x7b' :: '\x7b' :: (s.inner ++ ['\x7d', '\x7d']) := rfl

theorem proper_ofInner (hinner : ∀ c ∈ cs, isInner c) (hblank : ∃ c ∈ cs, ¬ isSpace c) :
    (ofInner cs).Proper := by
  have hcs := inner_ofInner cs
  exact ⟨hcs.symm ▸ hinner, hcs.symm ▸ hblank, by rw [hcs]⟩

/-- What stands between the braces goes up to the closing ones. -/
theorem span_inner {inner : List Char} (hinner : ∀ c ∈ inner, isInner c) (after : List Char) :
    (inner ++ '\x7d' :: after).takeWhile isInner = inner ∧
      (inner ++ '\x7d' :: after).dropWhile isInner = '\x7d' :: after := by
  rw [List.takeWhile_append_of_pos hinner, List.dropWhile_append_of_pos hinner]
  simp [isInner]

/-- A text begins with a slot if that is proper and written at its head. -/
theorem atHead?_eq_some_iff : atHead? cs = some (s, after) ↔ s.Proper ∧ cs = s.text ++ after := by
  constructor
  · intro h
    refine ⟨?_, (text_append_of_atHead? h).symm⟩
    unfold atHead? at h
    split at h
    · rename_i rest
      split at h
      · split at h
        · simp at h
        · rename_i hblank
          obtain ⟨rfl, -⟩ := by simpa using h
          refine proper_ofInner (fun c hc => ?_) (by simpa using hblank)
          exact List.all_eq_true.1 List.all_takeWhile c hc
      · simp at h
    · simp at h
  · rintro ⟨hs, rfl⟩
    obtain ⟨htake, hdrop⟩ := span_inner hs.isInner ('\x7d' :: after)
    have hblank : s.inner.all isSpace = false := by
      obtain ⟨c, hc, hspace⟩ := hs.notBlank
      exact List.all_eq_false.2 ⟨c, hc, hspace⟩
    have htext : s.text ++ after =
        '\x7b' :: '\x7b' :: (s.inner ++ '\x7d' :: '\x7d' :: after) := by
      simp [text_eq]
    rw [htext]
    simp only [atHead?, htake, hdrop, hblank, hs.parts]
    rfl

theorem atHead?_text_append (hs : s.Proper) (after : List Char) :
    atHead? (s.text ++ after) = some (s, after) := atHead?_eq_some_iff.2 ⟨hs, rfl⟩

/-- A slot is still there when the text goes on. -/
theorem atHead?_append {rest : List Char} (h : atHead? cs = some (s, rest)) (after : List Char) :
    atHead? (cs ++ after) = some (s, rest ++ after) := by
  obtain ⟨hs, rfl⟩ := atHead?_eq_some_iff.1 h
  rw [List.append_assoc, atHead?_text_append hs]

namespace Proper

theorem inner_ne_nil (hs : s.Proper) : s.inner ≠ [] := by
  obtain ⟨c, hc, -⟩ := hs.notBlank
  exact List.ne_nil_of_mem hc

theorem name_ne_nil (hs : s.Proper) : s.name ≠ [] := by
  rw [← hs.parts]
  intro hname
  obtain ⟨c, hc, hspace⟩ := hs.notBlank
  -- nothing is left but the white space before and behind
  have hrest : ∀ d ∈ trimStart s.inner, isSpace d := by
    have hdrop : (trimStart s.inner).reverse.dropWhile isSpace = [] :=
      List.reverse_eq_nil_iff.1 hname
    simpa using List.dropWhile_eq_nil_iff.1 hdrop
  rw [← takeWhile_append_trimStart s.inner, List.mem_append] at hc
  rcases hc with hc | hc
  · exact hspace (List.all_eq_true.1 List.all_takeWhile c hc)
  · exact hspace (hrest c hc)

/-- No double brace opens behind the first character of a slot, wherever it closes. -/
theorem append_ne_opening {u w x y : List Char} (hs : s.Proper) (htext : s.text = u ++ w)
    (hu : u ≠ []) (hw : w ≠ []) : w ++ x ≠ '\x7b' :: '\x7b' :: y := by
  intro hopen
  have hbrace : ∀ c ∈ s.inner ++ ['\x7d', '\x7d'], c ≠ '\x7b' := by
    intro c hc
    rcases List.mem_append.1 hc with hc | hc
    · have := hs.isInner c hc
      simp only [Slot.isInner, Bool.and_eq_true, bne_iff_ne] at this
      exact this.1.1
    · rintro rfl
      simp at hc
  obtain ⟨a, u, rfl⟩ := List.exists_cons_of_ne_nil hu
  rw [text_eq, List.cons_append, List.cons.injEq] at htext
  cases u with
  | nil =>
    -- the second brace is not followed by a third one
    obtain ⟨c, inner, hinner⟩ := List.exists_cons_of_ne_nil hs.inner_ne_nil
    obtain rfl : _ = w := htext.2
    rw [hinner, List.cons_append, List.cons_append, List.cons_append] at hopen
    simp only [List.cons.injEq] at hopen
    exact hbrace c (by simp [hinner]) hopen.2.1
  | cons b u =>
    obtain ⟨c, w, rfl⟩ := List.exists_cons_of_ne_nil hw
    rw [List.cons_append, List.cons.injEq] at htext
    rw [List.cons_append, List.cons.injEq] at hopen
    refine hbrace c ?_ hopen.1
    rw [htext.2.2]
    simp

end Proper

end Slot

/-! ## Rows -/

/-- No slot begins in a run. -/
def SlotFree (run : List Char) : Prop := ∀ post, post <:+ run → Slot.atHead? post = none

/-- The rows of pieces in which no slot hides: every slot is proper, every run is free of slots and
not empty, and no two runs stand next to each other. -/
inductive Row : List Piece → Prop
  /-- The row without pieces. -/
  | nil : Row []
  /-- A slot before a row. -/
  | slot {s : Slot} {ps : List Piece} (hs : s.Proper) (hps : Row ps) : Row (.slot s :: ps)
  /-- A run before a row that does not begin with one. -/
  | literal {run : List Char} {ps : List Piece} (hne : run ≠ []) (hfree : SlotFree run)
      (hnext : ∀ next, ps.head? ≠ some (.literal next)) (hps : Row ps) : Row (.literal run :: ps)

namespace Row

open Piece

variable {s : Slot} {ps : List Piece} {before after : List Char}

/-- A row that does not begin with a run is empty or begins with a proper slot. -/
theorem cases_of_head? (h : Row ps) (hhead : ∀ run, ps.head? ≠ some (.literal run)) :
    ps = [] ∨ ∃ s qs, ps = .slot s :: qs ∧ s.Proper ∧ Row qs := by
  cases h with
  | nil => exact .inl rfl
  | slot hs hps => exact .inr ⟨_, _, rfl, hs, hps⟩
  | literal => exact absurd rfl (hhead _)

theorem proper_of_mem (h : Row ps) (hmem : .slot s ∈ ps) : s.Proper := by
  induction h with
  | nil => simp at hmem
  | slot hs _ ih =>
    rcases List.mem_cons.1 hmem with heq | hmem
    · exact Piece.slot.inj heq ▸ hs
    · exact ih hmem
  | literal _ _ _ _ ih => exact ih (by simpa using hmem)

/-- A slot that begins in a run does not end behind it, so none begins there. -/
theorem atHead?_append_flatten {post : List Char} (hpost : Slot.atHead? post = none)
    (hne : post ≠ []) (h : Row ps) (hhead : ∀ run, ps.head? ≠ some (.literal run)) :
    Slot.atHead? (post ++ flatten ps) = none := by
  rw [Option.eq_none_iff_forall_ne_some]
  rintro ⟨s, rest⟩ hsome
  obtain ⟨hs, htext⟩ := Slot.atHead?_eq_some_iff.1 hsome
  have hnot (w : List Char) : post ≠ s.text ++ w := by
    rintro rfl
    simp [Slot.atHead?_text_append hs] at hpost
  rcases List.append_eq_append_iff.1 htext with ⟨w, hw, hflatten⟩ | ⟨w, hw, -⟩
  · by_cases hwne : w = []
    · exact hnot [] (by rw [hw, hwne, List.append_nil, List.append_nil])
    · -- the slot goes on behind the run, where a slot or nothing follows
      rcases h.cases_of_head? hhead with rfl | ⟨t, qs, rfl, -, -⟩
      · exact hwne (List.append_eq_nil_iff.1 hflatten.symm).1
      · exact hs.append_ne_opening hw hne hwne hflatten.symm
  · exact hnot w hw

end Row

/-! ## Steps of a scan -/

section Steps

variable {run : List Char} {done : List Piece} {c : Char} {cs after : List Char} {s : Slot}

theorem scanFrom_nil (run : List Char) (done : List Piece) :
    scanFrom run done [] = (Piece.close run done).reverse := by
  rw [scanFrom]

/-- A slot at the head closes the open run. -/
theorem scanFrom_of_some (h : Slot.atHead? cs = some (s, after)) :
    scanFrom run done cs = scanFrom [] (.slot s :: Piece.close run done) after := by
  cases cs with
  | nil => simp [Slot.atHead?] at h
  | cons c cs =>
    rw [scanFrom]
    split
    · rename_i hsome
      obtain ⟨rfl, rfl⟩ := Prod.mk.inj (Option.some.inj (hsome.symm.trans h))
      rfl
    · rename_i hnone
      simp [hnone] at h

/-- Any other character goes on with the open run. -/
theorem scanFrom_of_none (h : Slot.atHead? (c :: cs) = none) :
    scanFrom run done (c :: cs) = scanFrom (c :: run) done cs := by
  rw [scanFrom]
  split
  · rename_i hsome
    simp [hsome] at h
  · rfl

/-- Pieces that were found before stay in front. -/
theorem scanFrom_append_done (run : List Char) (done more : List Piece) (cs : List Char) :
    scanFrom run (done ++ more) cs = more.reverse ++ scanFrom run done cs := by
  have hclose (run : List Char) (done : List Piece) :
      Piece.close run (done ++ more) = Piece.close run done ++ more := by
    unfold Piece.close
    split <;> rfl
  induction run, done, cs using scanFrom.induct with
  | case1 run done => rw [scanFrom_nil, scanFrom_nil, hclose, List.reverse_append]
  | case2 run done c cs s after h ih =>
    rw [scanFrom_of_some h, scanFrom_of_some h, hclose, ← List.cons_append, ih]
  | case3 run done c cs h ih => rw [scanFrom_of_none h, scanFrom_of_none h, ih]

end Steps

/-! ## Every row is a scan -/

namespace Row

open Piece

variable {ps : List Piece}

/-- The scan of a run that is free of slots, before a row. -/
theorem scanFrom_append {suffix run : List Char} {done : List Piece} (hfree : SlotFree suffix)
    (h : Row ps) (hhead : ∀ run, ps.head? ≠ some (.literal run)) :
    scanFrom run done (suffix ++ flatten ps) =
      scanFrom (suffix.reverse ++ run) done (flatten ps) := by
  induction suffix generalizing run with
  | nil => rfl
  | cons c cs ih =>
    have hnone : Slot.atHead? (c :: (cs ++ flatten ps)) = none :=
      atHead?_append_flatten (hfree _ (List.suffix_refl _)) (List.cons_ne_nil c cs) h hhead
    rw [List.cons_append, scanFrom_of_none hnone,
      ih fun post hpost => hfree post (hpost.trans (List.suffix_cons c cs))]
    simp

theorem scanFrom_flatten (h : Row ps) (run : List Char) (done : List Piece)
    (hhead : run = [] ∨ ∀ next, ps.head? ≠ some (.literal next)) :
    scanFrom run done (flatten ps) = (close run done).reverse ++ ps := by
  induction h generalizing run done with
  | nil => rw [flatten_nil, scanFrom_nil, List.append_nil]
  | @slot s ps hs hps ih =>
    rw [flatten_cons, text_slot, scanFrom_of_some (Slot.atHead?_text_append hs _),
      ih [] _ (.inl rfl)]
    simp [close]
  | @literal suffix ps hne hfree hnext hps ih =>
    obtain rfl : run = [] := hhead.resolve_right fun h => h suffix rfl
    rw [flatten_cons]
    refine (scanFrom_append hfree hps hnext).trans ?_
    rw [ih _ _ (.inr hnext)]
    simp [close, hne]

/-- **Every row is the scan of its text.** -/
theorem scan_flatten (h : Row ps) : scan (flatten ps) = ps :=
  h.scanFrom_flatten [] [] (.inl rfl)

end Row

/-! ## Every scan is a row -/

/-- A run without slots, closed before a row. -/
theorem row_close {run cs : List Char} {ps : List Piece}
    (h : ∀ post, post <:+ run.reverse → post ≠ [] → Slot.atHead? (post ++ cs) = none)
    (hps : Row ps) (hnext : ∀ next, ps.head? ≠ some (.literal next)) :
    Row ((Piece.close run []).reverse ++ ps) := by
  unfold Piece.close
  split
  · exact hps
  · rename_i hne
    refine .literal (by simpa using hne) (fun post hpost => ?_) hnext hps
    cases hhead : Slot.atHead? post with
    | none => rfl
    | some found =>
      have hpostne : post ≠ [] := by
        rintro rfl
        simp [Slot.atHead?] at hhead
      have hnone := h post hpost hpostne
      simp [Slot.atHead?_append hhead cs] at hnone

/-- The scan of a text, while no slot begins in the open run, however the text goes on. -/
theorem row_scanFrom (run : List Char) (done : List Piece) (cs : List Char)
    (h : ∀ post, post <:+ run.reverse → post ≠ [] → Slot.atHead? (post ++ cs) = none) :
    Row (scanFrom run [] cs) := by
  induction run, done, cs using scanFrom.induct with
  | case1 run done =>
    rw [scanFrom_nil, ← List.append_nil (Piece.close run []).reverse]
    exact row_close h .nil (by simp)
  | case2 run done c cs s after hsome ih =>
    have hafter : Row (scanFrom [] [] after) :=
      ih fun post hpost hne => absurd (List.suffix_nil.1 hpost) hne
    rw [scanFrom_of_some hsome, ← List.nil_append (Piece.slot s :: _), scanFrom_append_done,
      List.reverse_cons, List.append_assoc]
    exact row_close h (.slot (Slot.atHead?_eq_some_iff.1 hsome).1 hafter) (by simp)
  | case3 run done c cs hnone ih =>
    rw [scanFrom_of_none hnone]
    refine ih fun post hpost hne => ?_
    rw [List.reverse_cons, List.suffix_concat_iff] at hpost
    obtain ⟨rest, rfl, hrest⟩ := hpost.resolve_left hne
    rw [List.append_assoc]
    by_cases hrestne : rest = []
    · subst hrestne
      exact hnone
    · exact h rest hrest hrestne

/-- **Every scan is a row.** -/
theorem row_scan (cs : List Char) : Row (scan cs) :=
  row_scanFrom [] [] cs fun _ hpost hne => absurd (List.suffix_nil.1 hpost) hne

/-! ## Slots that stand in a text -/

/-- Every slot that stands in the text of a row is one of its pieces. -/
theorem Row.exists_split {ps : List Piece} {s : Slot} {before after : List Char} (h : Row ps)
    (hs : s.Proper) (htext : Piece.flatten ps = before ++ (s.text ++ after)) :
    ∃ qs rs, ps = qs ++ .slot s :: rs ∧ Piece.flatten qs = before ∧ Piece.flatten rs = after := by
  induction h generalizing before with
  | nil =>
    have := congrArg List.length htext
    simp [Slot.text_eq] at this
  | @slot t ps ht hps ih =>
    rw [Piece.flatten_cons, Piece.text_slot] at htext
    by_cases hbefore : before = []
    · -- both slots are at the head
      subst hbefore
      have hhead := Slot.atHead?_text_append ht (Piece.flatten ps)
      rw [htext, List.nil_append, Slot.atHead?_text_append hs] at hhead
      obtain ⟨rfl, rfl⟩ := Prod.mk.inj (Option.some.inj hhead)
      exact ⟨[], ps, rfl, rfl, rfl⟩
    · rcases List.append_eq_append_iff.1 htext with ⟨w, rfl, hw⟩ | ⟨w, hw, hopen⟩
      · obtain ⟨qs, rs, rfl, rfl, rfl⟩ := ih hw
        exact ⟨.slot t :: qs, rs, rfl, rfl, rfl⟩
      · by_cases hwne : w = []
        · subst hwne
          rw [List.append_nil] at hw
          obtain ⟨qs, rs, rfl, hqs, rfl⟩ := @ih [] hopen.symm
          exact ⟨.slot t :: qs, rs, rfl, by simp [hqs, ← hw, Piece.text], rfl⟩
        · exact absurd hopen.symm (ht.append_ne_opening hw hbefore hwne)
  | @literal run ps hne hfree hnext hps ih =>
    rw [Piece.flatten_cons, Piece.text_literal] at htext
    rcases List.append_eq_append_iff.1 htext with ⟨w, rfl, hw⟩ | ⟨w, hw, hstart⟩
    · obtain ⟨qs, rs, rfl, rfl, rfl⟩ := ih hw
      exact ⟨.literal run :: qs, rs, rfl, rfl, rfl⟩
    · by_cases hwne : w = []
      · subst hwne
        rw [List.append_nil] at hw
        obtain ⟨qs, rs, rfl, hqs, rfl⟩ := @ih [] hstart.symm
        exact ⟨.literal run :: qs, rs, rfl, by simp [hqs, ← hw, Piece.text], rfl⟩
      · -- the slot would begin in the run
        have hnone := hps.atHead?_append_flatten (hfree w (hw ▸ List.suffix_append before w)) hwne
          hnext
        simp [← hstart, Slot.atHead?_text_append hs] at hnone

end Stencil.Placeholder
