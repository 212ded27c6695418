import Stencil.Proofs.Placeholder.Renaming

/-!
# Names and keys as encodings

A base key and a group are written as one name, and a base key and a number as one key. Either is
taken apart at the last separator, which may stand in the base key as well, and nothing is lost.

* `Name.split_eq_some_iff` — the names from which a base key and a group are read;
* `splitOccurrenceKey?_eq_some_iff` — the keys from which a base key and a number are read;
* `encodings_lossless` — taking apart undoes putting together, and, for names, the other way round.
-/

namespace Stencil.Placeholder

open Text

variable {name base group key : String} {index : Nat}

/-! ## Names -/

namespace Name

/-- **A base key and a group are read from the name they make up**, and from no other, as long as
the base key is not empty and the group is a numeral. -/
theorem split_eq_some_iff : split name = ⟨base, some group⟩ ↔
    base ≠ "" ∧ isNumeral group.toList ∧ name = join ⟨base, some group⟩ := by
  constructor
  · intro h
    have hjoin : name = join ⟨base, some group⟩ := h ▸ (join_split name).symm
    have hname : name.toList ≠ [] := by simp [hjoin, join]
    have hbase : (split name).base ≠ "" := base_ne_empty hname
    have hgroup : (split name).group = some group := by rw [h]
    exact ⟨by rwa [h] at hbase, isNumeral_of_group_eq_some hgroup, hjoin⟩
  · rintro ⟨hbase, hgroup, rfl⟩
    exact split_join hbase hgroup

end Name

/-! ## Keys -/

/-- **A base key and a number are read from the keys that spell them**, if the number fits a machine
word. -/
theorem splitOccurrenceKey?_eq_some_iff : splitOccurrenceKey? key = some (base, index) ↔
    base ≠ "" ∧ index < indexLimit ∧ ∃ plus zeros, key = spelledKey base plus zeros index := by
  rw [splitOccurrenceKey?, Option.filter_eq_some_iff, splitOccurrence?_eq_some_iff,
    decide_eq_true_eq]
  tauto

/-! ## Both encodings -/

/-- **Names and keys are lossless.** The base key and the group of a text make it up again. A base
key and a group are read back from the name they make up just if the base key is not empty and the
group is a numeral; a base key and a number are read back from their key just if the base key is not
empty and the number fits a machine word. So separators and digits in a base key do no harm. -/
theorem encodings_lossless :
    (∀ name : String, (Name.split name).join = name) ∧
      (∀ base group : String, Name.split (Name.join ⟨base, some group⟩) = ⟨base, some group⟩ ↔
        base ≠ "" ∧ isNumeral group.toList) ∧
      ∀ (base : String) (index : Nat),
        splitOccurrenceKey? (occurrenceKey base index) = some (base, index) ↔
          base ≠ "" ∧ index < Number.twoTo 64 := by
  refine ⟨Name.join_split, fun base group => ?_, fun base index => ?_⟩
  · rw [Name.split_eq_some_iff, and_iff_left rfl]
  · have hspelled : ∃ plus zeros, occurrenceKey base index = spelledKey base plus zeros index :=
      ⟨false, 0, (spelledKey_eq_occurrenceKey base index).symm⟩
    rw [splitOccurrenceKey?_eq_some_iff, and_iff_left hspelled, indexLimit]

/-- Base keys that end in a separator and digits themselves. -/
example : Name.split (Name.join ⟨"a_1", some "007"⟩) = ⟨"a_1", some "007"⟩ ∧
    splitOccurrenceKey? (occurrenceKey "a-1" 20) = some ("a-1", 20) := by
  decide +kernel

end Stencil.Placeholder
