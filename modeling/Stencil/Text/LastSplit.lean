/-!
# Splitting at the last separator

Names and keys are glued together with a separator that their first part may contain, so they are
taken apart at its last place. Main statements: `splitLast?_eq_some_iff`, which says what the parts
are, and `splitLast?_eq_none_iff`.
-/

namespace Stencil.Text

/-- The parts before and after the last `sep`, if there is one. -/
def splitLast? (sep : Char) (cs : List Char) : Option (List Char × List Char) :=
  match cs.reverse.dropWhile (· != sep) with
  | [] => none
  | _ :: before => some (before.reverse, (cs.reverse.takeWhile (· != sep)).reverse)

/-- What stands before the first `sep` of a list that has one. -/
private theorem span_sep {sep : Char} {pre : List Char} (post : List Char) (h : sep ∉ pre) :
    (pre ++ sep :: post).takeWhile (· != sep) = pre ∧
      (pre ++ sep :: post).dropWhile (· != sep) = sep :: post := by
  induction pre with
  | nil => simp
  | cons c cs ih =>
    have hc : c ≠ sep := fun e => h (by simp [e])
    simp [hc, ih (fun hm => h (List.mem_cons_of_mem _ hm))]

/-- The parts are those around a `sep` after which there is no other. -/
theorem splitLast?_eq_some_iff {sep : Char} {cs before after : List Char} :
    splitLast? sep cs = some (before, after) ↔ cs = before ++ sep :: after ∧ sep ∉ after := by
  constructor
  · intro h
    have whole := List.takeWhile_append_dropWhile (p := (· != sep)) (l := cs.reverse)
    have stop := List.head?_dropWhile_not (· != sep) cs.reverse
    have free : sep ∉ cs.reverse.takeWhile (· != sep) := fun hm => by
      simpa using List.all_eq_true.1 List.all_takeWhile sep hm
    unfold splitLast? at h
    generalize cs.reverse.takeWhile (· != sep) = run at h whole free
    split at h
    · simp at h
    · rename_i c rest hdrop
      obtain ⟨rfl, rfl⟩ := by simpa using h
      rw [hdrop] at whole stop
      obtain rfl : c = sep := by simpa using stop
      refine ⟨?_, by simpa using free⟩
      rw [← List.reverse_reverse cs, ← whole]
      simp
  · rintro ⟨rfl, h⟩
    have hs := span_sep before.reverse (show sep ∉ after.reverse by simpa using h)
    simp [splitLast?, hs.1, hs.2]

/-- There are no parts exactly when there is no separator. -/
theorem splitLast?_eq_none_iff {sep : Char} {cs : List Char} :
    splitLast? sep cs = none ↔ sep ∉ cs := by
  constructor
  · intro h hm
    have whole := List.takeWhile_append_dropWhile (p := (· != sep)) (l := cs.reverse)
    have free : sep ∉ cs.reverse.takeWhile (· != sep) := fun hm => by
      simpa using List.all_eq_true.1 List.all_takeWhile sep hm
    unfold splitLast? at h
    split at h
    · rename_i hnil
      rw [hnil, List.append_nil] at whole
      exact free (by rw [whole]; exact List.mem_reverse.2 hm)
    · simp at h
  · intro h
    cases hs : splitLast? sep cs with
    | none => rfl
    | some parts =>
      obtain ⟨rfl, -⟩ := splitLast?_eq_some_iff.1 hs
      simp at h

end Stencil.Text
