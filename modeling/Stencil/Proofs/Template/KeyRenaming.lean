import Stencil.Proofs.OrderedMap
import Stencil.Proofs.Placeholder.Renaming
import Stencil.Template.KeyRenaming

/-!
# Templates with renamed keys

* `Localized.resolve_map` — a change that keeps what is empty commutes with falling back on other
  languages;
* `Template.text_renameKeys` — in every language a template with renamed keys shows the text with
  renamed base keys;
* `renameSelectionKey_singleton` — what becomes of the key of a selection when one key is renamed;
* `Template.renameKeys_renameKeys` — a template whose keys are renamed forth and back.
-/

namespace Stencil

open Placeholder

/-! ## Localized texts -/

namespace Localized

variable {f g : String → String}

/-- What is shown is the string of some language, if it is not empty. -/
theorem resolve_mem_texts {c : Localized} {language : String} (h : c.resolve language ≠ "") :
    c.resolve language ∈ c.texts := by
  cases c with
  | plain text => exact List.mem_singleton_self _
  | localized m =>
    change (((language :: fallbacks).filterMap m.get? ++ m.values).find? (· ≠ "")).getD "" ∈
      m.values
    cases hfind : ((language :: fallbacks).filterMap m.get? ++ m.values).find? (· ≠ "") with
    | none => exact absurd (congrArg (Option.getD · "") hfind) h
    | some s =>
      rw [Option.getD_some]
      rcases List.mem_append.1 (List.mem_of_find?_eq_some hfind) with hs | hs
      · obtain ⟨code, -, hcode⟩ := List.mem_filterMap.1 hs
        exact List.mem_map_of_mem (OrderedMap.get?_eq_some_iff.1 hcode)
      · exact hs

/-- Falling back on other languages is the same before and after a change that keeps the empty
string and makes no other one empty. -/
theorem resolve_map (hf : ∀ s, f s = "" ↔ s = "") (c : Localized) (language : String) :
    (c.map f).resolve language = f (c.resolve language) := by
  cases c with
  | plain text => rfl
  | localized m =>
    have hget : (language :: fallbacks).filterMap (m.map fun _ => f).get? =
        ((language :: fallbacks).filterMap m.get?).map f := by
      rw [List.map_filterMap]
      exact congrArg (List.filterMap · _) (funext fun code => OrderedMap.get?_map _ _ _)
    have hvalues : (m.map fun _ => f).values = m.values.map f := by
      simp only [OrderedMap.values, OrderedMap.map, List.map_map]
      rfl
    have hshown : ((fun s => decide (s ≠ "")) ∘ f) = fun s => decide (s ≠ "") := by
      funext s
      simp only [Function.comp_apply, ne_eq, hf]
    change (((language :: fallbacks).filterMap (m.map fun _ => f).get? ++
        (m.map fun _ => f).values).find? (· ≠ "")).getD "" =
      f ((((language :: fallbacks).filterMap m.get? ++ m.values).find? (· ≠ "")).getD "")
    rw [hget, hvalues, ← List.map_append, List.find?_map, hshown]
    cases ((language :: fallbacks).filterMap m.get? ++ m.values).find? (· ≠ "") with
    | none => exact ((hf "").2 rfl).symm
    | some s => rfl

/-- Strings that are changed and changed back are as before. -/
theorem map_map_eq_self {c : Localized} (h : ∀ s ∈ c.texts, g (f s) = s) :
    (c.map f).map g = c := by
  cases c with
  | plain text => exact congrArg plain (h text (List.mem_singleton_self _))
  | localized m =>
    refine congrArg localized (OrderedMap.ext_entries ?_)
    refine (List.map_map ..).trans ((List.map_congr_left fun e he => ?_).trans (List.map_id _))
    exact Prod.ext rfl (h e.2 (List.mem_map_of_mem he))

end Localized

/-! ## Keys of selections -/

section SelectionKey

variable {key newKey base k : String} {index : Nat}

theorem splitOccurrenceKey?_occurrenceKey (hbase : base ≠ "") (hindex : index < indexLimit) :
    splitOccurrenceKey? (occurrenceKey base index) = some (base, index) := by
  rw [splitOccurrenceKey?, splitOccurrence?_occurrenceKey hbase]
  simp [hindex]

/-- There is a dash in every occurrence key. -/
theorem dash_mem_occurrenceKey (base : String) (index : Nat) :
    '-' ∈ (occurrenceKey base index).toList := by
  simp [occurrenceKey]

theorem renameSelectionKey_self (key newKey : String) :
    renameSelectionKey [(key, newKey)] key = newKey := by
  rw [renameSelectionKey, Renames.get?_singleton, if_pos rfl]

theorem renameSelectionKey_of_split (hne : k ≠ key)
    (hsplit : splitOccurrenceKey? k = some (key, index)) :
    renameSelectionKey [(key, newKey)] k = occurrenceKey newKey index := by
  rw [renameSelectionKey, Renames.get?_singleton, if_neg hne, hsplit]
  simp [Renames.get?_singleton]

theorem renameSelectionKey_of_unrelated (hne : k ≠ key)
    (hsplit : ∀ index, splitOccurrenceKey? k ≠ some (key, index)) :
    renameSelectionKey [(key, newKey)] k = k := by
  rw [renameSelectionKey, Renames.get?_singleton, if_neg hne]
  dsimp only
  split
  · rename_i base index hk
    have hbase : base ≠ key := fun heq => hsplit index (heq ▸ hk)
    rw [Renames.get?_singleton, if_neg hbase, Option.elim_none]
  · rfl

/-- When `key` becomes `newKey`, a selection comes under `newKey`, under an occurrence key of it, or
stays where it is. -/
theorem renameSelectionKey_cases (key newKey k : String) :
    (k = key ∧ renameSelectionKey [(key, newKey)] k = newKey) ∨
      (k ≠ key ∧ ∃ index, splitOccurrenceKey? k = some (key, index) ∧
        renameSelectionKey [(key, newKey)] k = occurrenceKey newKey index) ∨
      (k ≠ key ∧ (∀ index, splitOccurrenceKey? k ≠ some (key, index)) ∧
        renameSelectionKey [(key, newKey)] k = k) := by
  by_cases hself : k = key
  · subst hself
    exact .inl ⟨rfl, renameSelectionKey_self k newKey⟩
  by_cases hsplit : ∃ index, splitOccurrenceKey? k = some (key, index)
  · obtain ⟨index, hindex⟩ := hsplit
    exact .inr (.inl ⟨hself, index, hindex, renameSelectionKey_of_split hself hindex⟩)
  · rw [not_exists] at hsplit
    exact .inr (.inr ⟨hself, hsplit, renameSelectionKey_of_unrelated hself hsplit⟩)

end SelectionKey

/-! ## Templates -/

namespace Template

variable {t : Template} {key newKey language : String}

/-- The tokens of a template as it is shown in a language. -/
def tokens (t : Template) (language : String) : List Token :=
  (Parsed.ofText (t.text language)).tokens.toList

/-- **Shown in any language, a template with renamed keys is the text with renamed base keys.** -/
theorem text_renameKeys (renames : Renames) (t : Template) (language : String) :
    (t.renameKeys renames).text language = renameBases renames (t.text language) := by
  rw [renameKeys]
  split
  · rename_i hempty
    rw [List.isEmpty_iff.1 hempty, renameBases_nil]
  · exact Localized.resolve_map (fun _ => renameBases_eq_empty_iff) _ _

theorem tokens_renameKeys (renames : Renames) (t : Template) (language : String) :
    (t.renameKeys renames).tokens language =
      (Parsed.ofText (renameBases renames (t.text language))).tokens.toList := by
  rw [tokens, text_renameKeys]

/-- A token of a template is one of the string of some language. -/
theorem exists_text_of_mem_tokens {u : Token} (hu : u ∈ t.tokens language) :
    ∃ text ∈ t.content.texts, u ∈ (Parsed.ofText text).tokens.toList := by
  refine ⟨t.text language, Localized.resolve_mem_texts fun hempty => ?_, hu⟩
  rw [tokens, text, hempty] at hu
  simp [Parsed.tokens_ofText, scan, scanFrom, Piece.close] at hu

/-- **A template whose keys are renamed forth and back is as before**, if its texts and the keys of
its selections are. -/
theorem renameKeys_renameKeys
    (htexts : ∀ s ∈ t.content.texts,
      renameBases [(newKey, key)] (renameBases [(key, newKey)] s) = s)
    (hselections : ∀ k ∈ t.selections.keys,
      renameSelectionKey [(newKey, key)] (renameSelectionKey [(key, newKey)] k) = k) :
    (t.renameKeys [(key, newKey)]).renameKeys [(newKey, key)] = t := by
  have hcontent := Localized.map_map_eq_self htexts
  have hkeys := OrderedMap.mapKeys_mapKeys hselections
  simp only [renameKeys, List.isEmpty_cons, Bool.false_eq_true, if_false, hcontent, hkeys]

end Template

end Stencil
