import Stencil.Placeholder.OccurrenceKey
import Stencil.Proofs.Text.Numeral

/-!
# Reading occurrence keys

The key of an occurrence ends in a number, and that number may be spelled in other ways than it is
written. All of them are read alike.

* `spelledKey` — a key with zeros and perhaps a plus sign before its number;
* `splitOccurrence?_eq_some_iff` — these are the keys from which a base key and a number are read;
* `splitOccurrence?_occurrenceKey`, `occurrenceKey_inj` — the key of an occurrence is one of them,
  and is the key of no other occurrence.
-/

namespace Stencil.Placeholder

open Text

variable {key base base' : String} {index index' zeros : Nat} {plus : Bool}

/-- The key of an occurrence with zeros and perhaps a plus sign before the number. -/
def spelledKey (base : String) (plus : Bool) (zeros index : Nat) : String :=
  base ++ "-" ++ String.ofList (spelling plus zeros index)

theorem toList_spelledKey (base : String) (plus : Bool) (zeros index : Nat) :
    (spelledKey base plus zeros index).toList = base.toList ++ '-' :: spelling plus zeros index := by
  simp [spelledKey]

/-- The key of an occurrence is the one without a sign and zeros. -/
theorem spelledKey_eq_occurrenceKey_iff :
    spelledKey base plus zeros index = occurrenceKey base index ↔ ¬ (plus ∨ 0 < zeros) := by
  rw [← spelling_eq_digits_iff (n := index), spelledKey, occurrenceKey, decimal,
    String.append_right_inj, String.ofList_inj]

theorem spelledKey_eq_occurrenceKey (base : String) (index : Nat) :
    spelledKey base false 0 index = occurrenceKey base index :=
  spelledKey_eq_occurrenceKey_iff.2 (by simp)

/-- **A base key and a number are read from the keys that spell them**, and from no others. -/
theorem splitOccurrence?_eq_some_iff : splitOccurrence? key = some (base, index) ↔
    base ≠ "" ∧ ∃ plus zeros, key = spelledKey base plus zeros index := by
  constructor
  · intro h
    unfold splitOccurrence? at h
    split at h
    · rename_i before after hsplit
      split at h
      · simp at h
      · rename_i hbefore
        obtain ⟨n, hn, hparts⟩ := Option.map_eq_some_iff.1 h
        obtain ⟨rfl, rfl⟩ := Prod.mk.inj hparts
        obtain ⟨hkey, -⟩ := splitLast?_eq_some_iff.1 hsplit
        obtain ⟨plus, zeros, rfl⟩ := readNatural?_eq_some_iff.1 hn
        refine ⟨by simpa using hbefore, plus, zeros, String.toList_inj.1 ?_⟩
        rw [hkey, toList_spelledKey, String.toList_ofList]
    · simp at h
  · rintro ⟨hbase, plus, zeros, rfl⟩
    have hsplit : splitLast? '-' (spelledKey base plus zeros index).toList =
        some (base.toList, spelling plus zeros index) :=
      splitLast?_eq_some_iff.2 ⟨toList_spelledKey .., dash_notMem_spelling plus zeros index⟩
    have hnumber : readNatural? (spelling plus zeros index) = some index :=
      readNatural?_eq_some_iff.2 ⟨plus, zeros, rfl⟩
    have hne : ¬ base.toList.isEmpty := by simpa using hbase
    simp only [splitOccurrence?, hsplit, if_neg hne, hnumber, Option.map_some, String.ofList_toList]

/-- The key of an occurrence is taken apart into what it was made of. -/
theorem splitOccurrence?_occurrenceKey (hbase : base ≠ "") (index : Nat) :
    splitOccurrence? (occurrenceKey base index) = some (base, index) :=
  splitOccurrence?_eq_some_iff.2 ⟨hbase, false, 0, (spelledKey_eq_occurrenceKey base index).symm⟩

theorem occurrenceKey_inj (hbase : base ≠ "") (hbase' : base' ≠ "")
    (h : occurrenceKey base index = occurrenceKey base' index') : base = base' ∧ index = index' := by
  have hsplit := splitOccurrence?_occurrenceKey hbase index
  rw [h, splitOccurrence?_occurrenceKey hbase' index'] at hsplit
  obtain ⟨hb, hi⟩ := Prod.mk.inj (Option.some.inj hsplit)
  exact ⟨hb.symm, hi.symm⟩

end Stencil.Placeholder
