import Stencil.Filling
import Stencil.Proofs.OrderedMap
import Stencil.Proofs.Placeholder.Tokens

/-!
# Pruned selections

Selections that no token of a text reads are dropped. Which they are is decided by taking keys
apart, while a token looks its key up as it is written, and a number can be spelled in more ways
than it is written.

* `Parsed.Misspelled` — a key from which that of a token is read, but in another spelling;
* `Parsed.isSome_find?_iff` — the keys that address something are those of tokens and their other
  spellings;
* `Selections.stale_dropped_iff` — what is kept, and that it is what the tokens read if and only if
  no key is misspelled.
-/

namespace Stencil

open Placeholder

/-! ## Keys that address a token -/

namespace Placeholder.Parsed

variable {text key : String}

/-- The key of a token with a plus sign or superfluous zeros before its number. -/
def Misspelled (p : Parsed) (key : String) : Prop :=
  ∃ t ∈ p.tokens.toList, ∃ (plus : Bool) (zeros : Nat), (plus ∨ 0 < zeros) ∧
    key = spelledKey t.baseKey plus zeros t.occurrence

/-- Some token has the key. -/
def HasKey (p : Parsed) (key : String) : Prop := key ∈ p.tokens.toList.map Token.key

instance (p : Parsed) (key : String) : Decidable (p.HasKey key) :=
  inferInstanceAs (Decidable (key ∈ p.tokens.toList.map Token.key))

/-- **A key addresses a token if it is the key of one or another spelling of it.** -/
theorem isSome_find?_iff : ((ofText text).find? key).isSome ↔
    (ofText text).HasKey key ∨ (ofText text).Misspelled key := by
  simp only [Option.isSome_iff_exists, find?_eq_some_iff, splitOccurrence?_eq_some_iff]
  constructor
  · rintro ⟨t, ht, -, plus, zeros, rfl⟩
    by_cases hspelled : plus ∨ 0 < zeros
    · exact .inr ⟨t, ht, plus, zeros, hspelled, rfl⟩
    · exact .inl (List.mem_map.2 ⟨t, ht, (spelledKey_eq_occurrenceKey_iff.2 hspelled).symm⟩)
  · rintro (hkey | ⟨t, ht, plus, zeros, -, rfl⟩)
    · obtain ⟨t, ht, rfl⟩ := List.mem_map.1 hkey
      exact ⟨t, ht, baseKey_ne_empty ht, false, 0, (spelledKey_eq_occurrenceKey ..).symm⟩
    · exact ⟨t, ht, baseKey_ne_empty ht, plus, zeros, rfl⟩

/-- No token has a key in another spelling. -/
theorem Misspelled.not_hasKey (h : (ofText text).Misspelled key) : ¬ (ofText text).HasKey key := by
  obtain ⟨t, ht, plus, zeros, hspelled, rfl⟩ := h
  intro hkey
  obtain ⟨u, hu, hukey⟩ := List.mem_map.1 hkey
  -- `u` is what is read from the spelling, and that is `t`
  have hsplit := splitOccurrence?_key hu
  rw [hukey, splitOccurrence?_eq_some_iff.2 ⟨baseKey_ne_empty ht, plus, zeros, rfl⟩] at hsplit
  obtain ⟨hbase, hoccurrence⟩ := Prod.mk.inj (Option.some.inj hsplit)
  rw [Token.key, ← hbase, ← hoccurrence] at hukey
  exact spelledKey_eq_occurrenceKey_iff.1 hukey.symm hspelled

end Placeholder.Parsed

/-! ## Values of tokens -/

namespace Selections

variable {selections selections' : Selections} {text : String}

/-- A text is filled in alike when its tokens have the same selections. -/
theorem render_congr (h : ∀ t ∈ (Parsed.ofText text).tokens.toList,
      selections.get? t.key = selections'.get? t.key) (defaults : Defaults) (language : String) :
    render text selections defaults language = render text selections' defaults language := by
  refine congrArg String.ofList (List.flatMap_congr fun s hs => ?_)
  cases s with
  | literal run start => rfl
  | token t => simp only [renderSegment, resolveOccurrence?, h t (Parsed.mem_tokens_of_segment hs)]

theorem get?_prune {t : Token} (ht : t ∈ (Parsed.ofText text).tokens.toList) :
    (selections.prune (Parsed.ofText text)).get? t.key = selections.get? t.key := by
  rw [prune, OrderedMap.get?_filter, Parsed.find?_key ht]
  cases selections.get? t.key <;> rfl

/-! ## What is kept -/

theorem mem_entries_prune {e : String × Localized} (he : e ∈ selections.entries) :
    e ∈ (selections.prune (Parsed.ofText text)).entries ↔
      (Parsed.ofText text).HasKey e.1 ∨ (Parsed.ofText text).Misspelled e.1 := by
  rw [← Parsed.isSome_find?_iff]
  exact List.mem_filter.trans (and_iff_right he)

/-- The selections that are read are kept, in their order. -/
theorem read_sublist_prune (selections : Selections) (text : String) :
    (selections.entries.filter fun e => (Parsed.ofText text).HasKey e.1).Sublist
      (selections.prune (Parsed.ofText text)).entries := by
  refine List.monotone_filter_right _ fun e he => ?_
  exact Parsed.isSome_find?_iff.2 (.inl (of_decide_eq_true he))

/-- Nothing but the selections that are read is kept if and only if no key is misspelled. -/
theorem entries_prune_eq_iff : (selections.prune (Parsed.ofText text)).entries =
      selections.entries.filter (fun e => (Parsed.ofText text).HasKey e.1) ↔
    ∀ key ∈ selections.keys, ¬ (Parsed.ofText text).Misspelled key := by
  constructor
  · intro h key hkey hmisspelled
    obtain ⟨e, he, rfl⟩ := List.mem_map.1 hkey
    have hkept := (mem_entries_prune he).2 (.inr hmisspelled)
    rw [h] at hkept
    exact hmisspelled.not_hasKey (of_decide_eq_true (List.mem_filter.1 hkept).2)
  · intro h
    refine List.filter_congr fun e he => ?_
    have hnot := h e.1 (List.mem_map_of_mem he)
    rw [Bool.eq_iff_iff, Parsed.isSome_find?_iff, decide_eq_true_iff, or_iff_left hnot]

/-- As many entries are dropped as no token reads if and only if no key is misspelled. -/
theorem size_prune_eq_iff : selections.size - (selections.prune (Parsed.ofText text)).size =
      selections.keys.countP (fun key => ¬ (Parsed.ofText text).HasKey key) ↔
    ∀ key ∈ selections.keys, ¬ (Parsed.ofText text).Misspelled key := by
  have hread := read_sublist_prune selections text
  have hall := selections.entries.length_eq_countP_add_countP
    fun e => decide ((Parsed.ofText text).HasKey e.1)
  have hkept : (selections.prune (Parsed.ofText text)).entries.length ≤ selections.entries.length :=
    List.length_filter_le ..
  have hlength := hread.length_le
  have hcount : selections.keys.countP (fun key => ¬ (Parsed.ofText text).HasKey key) =
      selections.entries.countP fun e => ¬ decide ((Parsed.ofText text).HasKey e.1) := by
    rw [OrderedMap.keys, List.countP_map]
    simp [Function.comp_def]
  rw [← entries_prune_eq_iff, hcount, OrderedMap.size, OrderedMap.size]
  rw [← List.countP_eq_length_filter] at hlength
  constructor
  · intro h
    refine (hread.eq_of_length ?_).symm
    rw [← List.countP_eq_length_filter]
    omega
  · intro h
    rw [h, ← List.countP_eq_length_filter]
    omega

/-- **Dropping stale selections keeps what is read, and other spellings of it.** What is kept stays
as it is and in its order, so that every token has the same value as before, for every reader and
with all defaults. What is kept is exactly what some token reads, and as many entries are dropped as
no token reads, if and only if there is no selection under a misspelled key. -/
theorem stale_dropped_iff (selections : Selections) (text : String) :
    let p := Parsed.ofText text
    let pruned := selections.prune p
    pruned.entries.Sublist selections.entries ∧
      (∀ e ∈ selections.entries, e ∈ pruned.entries ↔ p.HasKey e.1 ∨ p.Misspelled e.1) ∧
      (∀ (defaults : Defaults) (language : String),
        (∀ t ∈ p.tokens.toList, resolveOccurrence? pruned defaults t.key t.baseKey language =
          resolveOccurrence? selections defaults t.key t.baseKey language) ∧
        render text pruned defaults language = render text selections defaults language) ∧
      (pruned.entries = selections.entries.filter (fun e => p.HasKey e.1) ↔
        ∀ key ∈ selections.keys, ¬ p.Misspelled key) ∧
      (selections.size - pruned.size = selections.keys.countP (fun key => ¬ p.HasKey key) ↔
        ∀ key ∈ selections.keys, ¬ p.Misspelled key) := by
  intro p pruned
  have hvalues : ∀ t ∈ p.tokens.toList, pruned.get? t.key = selections.get? t.key :=
    fun t => get?_prune
  refine ⟨List.filter_sublist, fun e => mem_entries_prune, fun defaults language => ⟨?_, ?_⟩,
    entries_prune_eq_iff, size_prune_eq_iff⟩
  · intro t ht
    rw [resolveOccurrence?, resolveOccurrence?, hvalues t ht]
  · exact render_congr hvalues defaults language

/-- Two of three selections are dropped, one for a number that no token has and one that is not the
key of an occurrence. -/
theorem stale_dropped_of_written_keys :
    let text := "\x7b\x7bcolor\x7d\x7d \x7b\x7bcolor_1\x7d\x7d"
    let selections : Selections := .ofList
      [("color-5", .plain "blue"), ("color-1", .plain "red"), ("legacy", .plain "x")]
    let pruned := selections.prune (Parsed.ofText text)
    (∀ key ∈ selections.keys, ¬ (Parsed.ofText text).Misspelled key) ∧
      pruned.keys = ["color-1"] ∧ selections.size - pruned.size = 2 ∧
      ∀ (defaults : Defaults) (language : String),
        render text pruned defaults language = render text selections defaults language := by
  intro text selections pruned
  obtain ⟨-, -, hvalues, -, hsize⟩ := stale_dropped_iff selections text
  exact ⟨hsize.1 (by decide +kernel), by decide +kernel, by decide +kernel,
    fun defaults language => (hvalues defaults language).2⟩

/-- **What is kept is not always read.** The only token has the key `color-0`, and the selections
under `color-00` and `color-+0` are kept with the one under that key. -/
theorem stale_not_always_dropped :
    let p := Parsed.ofText "\x7b\x7bcolor\x7d\x7d"
    let selections : Selections := .ofList
      [("color-0", .plain "red"), ("color-00", .plain "blue"), ("color-+0", .plain "green")]
    let pruned := selections.prune p
    p.tokens.toList.map Token.key = ["color-0"] ∧
      selections.keys.filter (fun key => p.HasKey key) = ["color-0"] ∧
      pruned.keys = ["color-0", "color-00", "color-+0"] ∧
      selections.keys.countP (fun key => ¬ p.HasKey key) = 2 ∧
      selections.size - pruned.size = 0 := by
  decide +kernel

end Selections

end Stencil
