import Mathlib.Data.List.DropRight
import Mathlib.Data.List.Nodup
import Mathlib.Data.List.Perm.Subperm
import Stencil.Reconcile.KeyPlan

/-!
# Families of names

Facts on the names `base`, `base2`, `base3` and so on that an import or a backup may get.

* `exists_firstFree?` — a free name is found whenever few enough names are taken, and
  `firstFree?_eq_some_iff` says which one;
* `eq_of_inFamily_renameFamily` — the rename families of two keys have no name in common. It rests
  on `exists_nondigit_renameSuffix`: a suffix of digits only would make `a_1` and `a_11` overlap.
-/

namespace Stencil

open Text

namespace Reconcile

/-! ## Numbered names -/

theorem toList_numbered (base : String) (n : Nat) :
    (numbered base n).toList = base.toList ++ if n = 0 then [] else digits (n + 1) := by
  unfold numbered
  split <;> simp [decimal]

theorem numbered_injective (base : String) : Function.Injective (numbered base) := fun m n h => by
  have hl : (if m = 0 then [] else digits (m + 1)) = if n = 0 then [] else digits (n + 1) := by
    have := congrArg String.toList h
    rwa [toList_numbered, toList_numbered, List.append_right_inj] at this
  by_cases hm : m = 0 <;> by_cases hn : n = 0
  · rw [hm, hn]
  · simp [hm, hn, (digits_ne_nil (n + 1)).symm] at hl
  · simp [hm, hn, digits_ne_nil] at hl
  · rw [if_neg hm, if_neg hn] at hl
    have := congrArg value hl
    simpa using this

theorem inFamily_iff {name base : String} :
    inFamily name base ↔ ∃ ds, name.toList = base.toList ++ ds ∧ ∀ c ∈ ds, c.isDigit := by
  rw [inFamily, Bool.and_eq_true, List.isPrefixOf_iff_prefix, List.all_eq_true]
  constructor
  · rintro ⟨⟨ds, hds⟩, hdigits⟩
    rw [← hds, List.drop_left] at hdigits
    exact ⟨ds, hds.symm, hdigits⟩
  · rintro ⟨ds, hds, hdigits⟩
    rw [hds, List.drop_left]
    exact ⟨List.prefix_append _ _, hdigits⟩

theorem inFamily_numbered (base : String) (n : Nat) : inFamily (numbered base n) base := by
  refine inFamily_iff.2 ⟨_, toList_numbered base n, fun c hc => ?_⟩
  split at hc
  · simp at hc
  · exact isDigit_of_mem_digits hc

/-! ## The first free name -/

variable {base : String} {taken : String → Bool} {bound : Nat}

/-- The name that is found is not taken, and all that are tried before it are. -/
theorem firstFree?_eq_some_iff {name : String} :
    firstFree? base taken bound = some name ↔
      ∃ n ≤ bound, (∀ k < n, taken (numbered base k)) ∧ taken name = false ∧
        name = numbered base n := by
  have hfind {n : ℕ} : (List.range (bound + 1)).find? (fun n => !taken (numbered base n)) = some n ↔
      n ≤ bound ∧ (∀ k < n, taken (numbered base k)) ∧ taken (numbered base n) = false := by
    rw [List.find?_range_eq_some, List.mem_range, Nat.lt_add_one_iff]
    simp [and_comm, and_left_comm]
  simp only [firstFree?, Option.map_eq_some_iff, hfind]
  constructor
  · rintro ⟨n, ⟨hn, htaken, hfree⟩, rfl⟩
    exact ⟨n, hn, htaken, hfree, rfl⟩
  · rintro ⟨n, hn, htaken, hfree, rfl⟩
    exact ⟨n, ⟨hn, htaken, hfree⟩, rfl⟩

theorem firstFree?_eq_some {name : String} (h : firstFree? base taken bound = some name) :
    taken name = false ∧ inFamily name base := by
  obtain ⟨n, -, -, hfree, rfl⟩ := firstFree?_eq_some_iff.1 h
  exact ⟨hfree, inFamily_numbered base n⟩

/-- A free name is found if all taken names are in a list that is short enough. -/
theorem exists_firstFree? (names : List String) (htaken : ∀ name, taken name → name ∈ names)
    (hlength : names.length ≤ bound) : ∃ name, firstFree? base taken bound = some name := by
  rw [← Option.isSome_iff_exists, firstFree?, Option.isSome_map, List.find?_isSome]
  by_contra hall
  -- then there are more taken names in the family than there is room for
  have hsub : (List.range (bound + 1)).map (numbered base) ⊆ names := fun name hname => by
    obtain ⟨n, hn, rfl⟩ := List.mem_map.1 hname
    refine htaken _ ?_
    by_contra hfree
    exact hall ⟨n, hn, by simpa using hfree⟩
  have hnodup : ((List.range (bound + 1)).map (numbered base)).Nodup :=
    List.nodup_range.map (numbered_injective base)
  have := (List.subperm_of_subset hnodup hsub).length_le
  rw [List.length_map, List.length_range] at this
  omega

/-! ## Rename families -/

/-- A name without its last digits. -/
def stem (name : String) : List Char := name.toList.rdropWhile Char.isDigit

theorem stem_eq_of_inFamily {name base : String} (h : inFamily name base) :
    stem name = stem base := by
  obtain ⟨ds, hname, hdigits⟩ := inFamily_iff.1 h
  rw [stem, hname, List.rdropWhile, List.reverse_append, List.dropWhile_append_of_pos]
  · rfl
  · simpa using hdigits

theorem stem_renameFamily {suffix : String} (hsuffix : ∃ c ∈ suffix.toList, c.isDigit = false)
    (key : String) : stem (renameFamily suffix key) = key.toList ++ '_' :: stem suffix := by
  have hne : suffix.toList.reverse.dropWhile Char.isDigit ≠ [] := by
    rw [Ne, List.dropWhile_eq_nil_iff]
    intro hall
    obtain ⟨c, hc, hdigit⟩ := hsuffix
    simp [hall c (List.mem_reverse.2 hc)] at hdigit
  have hlist : (renameFamily suffix key).toList = key.toList ++ '_' :: suffix.toList := by
    simp [renameFamily]
  rw [stem, stem, hlist, List.rdropWhile, List.rdropWhile, List.reverse_append,
    List.reverse_cons, List.append_assoc, List.dropWhile_append, if_neg (by simpa using hne)]
  simp

/-- The suffix for renamed keys has more than digits. -/
theorem exists_nondigit_renameSuffix (config : ReconcileConfig) :
    ∃ c ∈ (renameSuffix config).toList, c.isDigit = false := by
  unfold renameSuffix
  split
  · exact ⟨'s', by decide +kernel, rfl⟩
  · rename_i h
    simpa using h

/-- A name is in the rename family of one key only. -/
theorem eq_of_inFamily_renameFamily {config : ReconcileConfig} {name key key' : String}
    (h : inFamily name (renameFamily (renameSuffix config) key))
    (h' : inFamily name (renameFamily (renameSuffix config) key')) : key = key' := by
  have hs := exists_nondigit_renameSuffix config
  have hstem : key.toList ++ '_' :: stem (renameSuffix config) =
      key'.toList ++ '_' :: stem (renameSuffix config) := by
    rw [← stem_renameFamily hs, ← stem_renameFamily hs, ← stem_eq_of_inFamily h,
      ← stem_eq_of_inFamily h']
  rwa [List.append_left_inj, String.toList_inj] at hstem

/-- No key is in its own rename family. -/
theorem ne_of_inFamily_renameFamily {suffix name key : String}
    (h : inFamily name (renameFamily suffix key)) : name ≠ key := by
  rintro rfl
  obtain ⟨ds, hname, -⟩ := inFamily_iff.1 h
  have := congrArg List.length hname
  simp [renameFamily] at this

end Reconcile

end Stencil
