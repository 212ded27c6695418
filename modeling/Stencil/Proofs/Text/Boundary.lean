import Mathlib.Order.Bounds.Basic
import Stencil.Text.Utf8

/-!
# Character boundaries

The places at which a text can be cut are the lengths of its starts. A cut is made at the last of
them that is not past an offset.

* `isValid_iff` — a boundary is where a start of the text ends;
* `prefix_of_byteLength_le` — of two starts of a text, the one with fewer bytes begins the other,
  and `append_inj_of_byteLength_eq`: two with equally many bytes are the same;
* `isGreatest_cutAt` — where a cut is made;
* `slice?` — the part of a text between two boundaries, and `slice?_eq_some_iff`.
-/

namespace Stencil.Text

variable {text : String} {offset : Nat} {c : Char} {cs before after : List Char}

/-! ## Starts of a text -/

theorem isValid_iff {n : Nat} : String.Pos.Raw.IsValid text ⟨n⟩ ↔
    ∃ before after, text.toList = before ++ after ∧ n = byteLength before := by
  rw [String.Pos.Raw.isValid_iff_exists_append]
  constructor
  · rintro ⟨s, s', rfl, hn⟩
    refine ⟨s.toList, s'.toList, String.toList_append, ?_⟩
    rw [byteLength_toList]
    exact congrArg String.Pos.Raw.byteIdx hn
  · rintro ⟨before, after, htext, rfl⟩
    refine ⟨String.ofList before, String.ofList after, ?_, ?_⟩
    · rw [← String.ofList_append, ← htext, String.ofList_toList]
    · rw [byteLength_eq_utf8ByteSize]
      rfl

/-- **Of two starts of a text, the one with fewer bytes begins the other.** -/
theorem prefix_of_byteLength_le {before' after' : List Char}
    (h : before ++ after = before' ++ after') (hle : byteLength before ≤ byteLength before') :
    ∃ w, before' = before ++ w ∧ after = w ++ after' := by
  rcases List.append_eq_append_iff.1 h with ⟨w, rfl, hw⟩ | ⟨w, rfl, hw⟩
  · exact ⟨w, rfl, hw⟩
  · cases w with
    | nil => exact ⟨[], by simp, by simpa using hw.symm⟩
    | cons c w =>
      have hpos := c.utf8Size_pos
      rw [byteLength_append, byteLength_cons] at hle
      omega

/-- A text is cut in one way only at a number of bytes. -/
theorem append_inj_of_byteLength_eq {before' after' : List Char}
    (h : before ++ after = before' ++ after') (heq : byteLength before = byteLength before') :
    before = before' ∧ after = after' := by
  obtain ⟨w, rfl, rfl⟩ := prefix_of_byteLength_le h heq.le
  cases w with
  | nil => exact ⟨(List.append_nil before).symm, List.nil_append after'⟩
  | cons c w =>
    have hpos := c.utf8Size_pos
    rw [byteLength_append, byteLength_cons] at heq
    omega

/-! ## Cuts -/

theorem cutFrom_eq (taken : List Char) (offset : Nat) (cs : List Char) :
    cutFrom taken offset cs = (taken.reverse ++ (cutAt offset cs).1, (cutAt offset cs).2) := by
  induction cs generalizing taken offset with
  | nil => simp [cutAt, cutFrom]
  | cons c cs ih =>
    rw [cutAt, cutFrom, cutFrom]
    split
    · rw [ih (c :: taken), ih [c]]
      simp
    · simp

theorem cutAt_cons (offset : Nat) (c : Char) (cs : List Char) :
    cutAt offset (c :: cs) =
      if c.utf8Size ≤ offset then
        (c :: (cutAt (offset - c.utf8Size) cs).1, (cutAt (offset - c.utf8Size) cs).2)
      else ([], c :: cs) := by
  rw [cutAt, cutFrom, cutFrom_eq [c]]
  rfl

theorem byteLength_cutAt_le (offset : Nat) (cs : List Char) :
    byteLength (cutAt offset cs).1 ≤ offset := by
  induction cs generalizing offset with
  | nil => exact Nat.zero_le _
  | cons c cs ih =>
    rw [cutAt_cons]
    split
    · have hle := ih (offset - c.utf8Size)
      rw [byteLength_cons]
      omega
    · exact Nat.zero_le _

/-- The character behind a cut does not fit before it. -/
theorem lt_of_cutAt (h : (cutAt offset cs).2 = c :: after) :
    offset < byteLength (cutAt offset cs).1 + c.utf8Size := by
  induction cs generalizing offset with
  | nil => simp [cutAt, cutFrom] at h
  | cons d cs ih =>
    rw [cutAt_cons] at h ⊢
    split at h
    · rename_i hfits
      have hlt := ih h
      rw [if_pos hfits, byteLength_cons]
      omega
    · rename_i hfits
      obtain ⟨rfl, -⟩ := List.cons.inj h
      rw [if_neg hfits, byteLength_nil]
      omega

/-- **A cut is made at the greatest boundary that is not past the offset or the end.** -/
theorem isGreatest_cutAt (offset : Nat) (text : String) :
    IsGreatest {n | String.Pos.Raw.IsValid text ⟨n⟩ ∧ n ≤ min offset text.utf8ByteSize}
      (byteLength (cutAt offset text.toList).1) := by
  have hcut := cutAt_append offset text.toList
  have hsize : text.utf8ByteSize = byteLength (cutAt offset text.toList).1 +
      byteLength (cutAt offset text.toList).2 := by
    rw [← byteLength_append, hcut, byteLength_toList]
  constructor
  · refine ⟨isValid_iff.2 ⟨_, _, hcut.symm, rfl⟩, Nat.le_min.2 ⟨?_, by omega⟩⟩
    exact byteLength_cutAt_le offset text.toList
  · rintro n ⟨hn, hle⟩
    obtain ⟨before, after, htext, rfl⟩ := isValid_iff.1 hn
    by_contra hlt
    obtain ⟨w, rfl, hw⟩ := prefix_of_byteLength_le (hcut.trans htext) (Nat.le_of_not_le hlt)
    cases w with
    | nil => simp at hlt
    | cons c w =>
      have hfits := lt_of_cutAt hw
      simp only [byteLength_append, byteLength_cons] at hle
      omega

/-! ## Slices -/

theorem pos?_eq_some_iff {n : Nat} {p : text.Pos} :
    text.pos? ⟨n⟩ = some p ↔ p.offset.byteIdx = n := by
  rw [String.pos?, String.Slice.pos?]
  split
  · simp [String.Pos.ext_iff, String.Pos.Raw.ext_iff, eq_comm]
  · rename_i hnot
    simp only [Option.map_none, reduceCtorEq, false_iff]
    rintro rfl
    exact hnot (by simpa using p.isValid)

/-- The part of a text between two places. There is one only if both are boundaries and the first
is not behind the second. -/
def slice? (text : String) (start stop : Nat) : Option String := do
  let first ← text.pos? ⟨start⟩
  let last ← text.pos? ⟨stop⟩
  (text.slice? first last).map (·.copy)

/-- **A part of a text is its slice from where the text before it ends to where it ends itself.** -/
theorem slice?_eq_some_iff {part : String} {start stop : Nat} :
    slice? text start stop = some part ↔ ∃ before after, text = before ++ part ++ after ∧
      start = before.utf8ByteSize ∧ stop = (before ++ part).utf8ByteSize := by
  have hslice : slice? text start stop = some part ↔ ∃ first last : text.Pos,
      first.offset.byteIdx = start ∧ last.offset.byteIdx = stop ∧
        ∃ h : first ≤ last, (text.slice first last h).copy = part := by
    simp only [slice?, bind, Option.bind_eq_some_iff, pos?_eq_some_iff, Option.map_eq_some_iff,
      String.slice?, Option.dite_none_right_eq_some, Option.some.injEq]
    grind
  simp only [hslice, String.copy_slice_eq_iff_splits]
  constructor
  · rintro ⟨first, last, rfl, rfl, before, after, hfirst, hlast⟩
    refine ⟨before, after, hlast.eq_append, ?_, ?_⟩
    · rw [hfirst.offset_eq_rawEndPos, String.byteIdx_rawEndPos]
    · rw [hlast.offset_eq_rawEndPos, String.byteIdx_rawEndPos]
  · rintro ⟨before, after, htext, rfl, rfl⟩
    have htext' : text = before ++ (part ++ after) := by rw [htext, String.append_assoc]
    have hfirst := String.Pos.Raw.isValid_iff_exists_append.2 ⟨_, _, htext', rfl⟩
    have hlast := String.Pos.Raw.isValid_iff_exists_append.2 ⟨_, _, htext, rfl⟩
    exact ⟨⟨_, hfirst⟩, ⟨_, hlast⟩, rfl, rfl, before, after, ⟨htext', rfl⟩, ⟨htext, rfl⟩⟩

end Stencil.Text
