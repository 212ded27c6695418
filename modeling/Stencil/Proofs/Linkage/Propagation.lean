import Stencil.Proofs.Linkage

/-!
# Values picked for linked tokens

A value that is picked for a token is picked for all tokens that are linked with it. They are found
by the key of the token, which is taken apart again, and by its group.

* `Parsed.linked_sublist` — the tokens that share a value stand in the order of the text;
* `Selections.selection_reaches_linked` — a picked value reaches them and no others.
-/

namespace Stencil

open Placeholder

/-! ## Tokens that share a value -/

namespace Placeholder.Parsed

variable {text : String} {t : Token}

theorem linked_sublist {p : Parsed} (ht : t ∈ p.tokens.toList) :
    (p.linked t).Sublist p.tokens.toList := by
  unfold linked
  cases t.group? with
  | none => exact List.singleton_sublist.2 ht
  | some group =>
    show (p.tokens.toList.filter _).Sublist p.tokens.toList
    exact List.filter_sublist

theorem linkedKeys_key (ht : t ∈ (ofText text).tokens.toList) :
    (ofText text).linkedKeys t.key = ((ofText text).linked t).map Token.key := by
  simp only [linkedKeys, find?_key ht]

end Placeholder.Parsed

/-! ## Picked values -/

namespace Selections

/-- **A value that is picked for a token reaches exactly the token and those linked with it.** Their
keys are answered in the order of the text, each once. Afterwards the value is under each of these
keys, and under every other key is what was there before. -/
theorem selection_reaches_linked (selections : Selections) {text : String} {t : Token}
    (ht : t ∈ (Parsed.ofText text).tokens.toList) (value : Localized) :
    let p := Parsed.ofText text
    let after := selections.propagate p t.key value
    ∃ us : List Token, us.Sublist p.tokens.toList ∧
      (∀ u, u ∈ us ↔ u ∈ p.tokens.toList ∧ (t = u ∨ t.isLinkedWith u)) ∧
      p.linkedKeys t.key = us.map Token.key ∧ (us.map Token.key).Nodup ∧
      (∀ u ∈ us, after.get? u.key = some value) ∧
      ∀ key, (∀ u ∈ us, u.key ≠ key) → after.get? key = selections.get? key := by
  intro p after
  have hsublist : (p.linked t).Sublist p.tokens.toList := Parsed.linked_sublist ht
  have hkeys : p.linkedKeys t.key = (p.linked t).map Token.key := Parsed.linkedKeys_key ht
  have hafter (key : String) : after.get? key =
      if key ∈ (p.linked t).map Token.key then some value else selections.get? key := by
    rw [← hkeys]
    exact get?_setAll selections _ value key
  refine ⟨p.linked t, hsublist, fun u => Parsed.mem_linked ht, hkeys, ?_, ?_, ?_⟩
  · exact (Parsed.nodup_keys text).sublist (hsublist.map Token.key)
  · intro u hu
    rw [hafter, if_pos (List.mem_map_of_mem hu)]
  · intro key hkey
    rw [hafter, if_neg]
    intro hmem
    obtain ⟨u, hu, rfl⟩ := List.mem_map.1 hmem
    exact hkey u hu rfl

/-- The base key `a-1` has a dash and a digit, and so looks like a key. A value that is picked for
the first token of its group `2` reaches the third token, and not the second one, which is in no
group, or the fourth one, whose base key is `a`. -/
theorem selection_of_dashed_key :
    let mark (name : String) := String.ofList (braced name.toList)
    let text := mark "a-1_2" ++ mark "a-1" ++ mark " a-1_2 " ++ mark "a_2"
    let p := Parsed.ofText text
    ∃ t ∈ p.tokens.toList, t.key = "a-1-0" ∧ p.linkedKeys t.key = ["a-1-0", "a-1-2"] ∧
      ∀ selections : Selections, ∀ value,
        (selections.propagate p t.key value).get? "a-1-2" = some value ∧
        (selections.propagate p t.key value).get? "a-1-1" = selections.get? "a-1-1" ∧
        (selections.propagate p t.key value).get? "a-0" = selections.get? "a-0" := by
  intro mark text p
  obtain ⟨t, ht, hkey, hkeys⟩ : ∃ t ∈ p.tokens.toList, t.key = "a-1-0" ∧
      p.linkedKeys t.key = ["a-1-0", "a-1-2"] := by decide +kernel
  refine ⟨t, ht, hkey, hkeys, fun selections value => ?_⟩
  obtain ⟨us, -, -, hus, -, hreached, hkept⟩ := selection_reaches_linked selections ht value
  have hmap : us.map Token.key = ["a-1-0", "a-1-2"] := hus.symm.trans hkeys
  have hother (key : String) (hne : key ∉ ["a-1-0", "a-1-2"]) : ∀ u ∈ us, u.key ≠ key := by
    rintro u hu rfl
    exact hne (hmap ▸ List.mem_map_of_mem hu)
  have hthird : "a-1-2" ∈ us.map Token.key := by simp [hmap]
  obtain ⟨u, hu, hukey⟩ := List.mem_map.1 hthird
  refine ⟨?_, hkept _ (hother _ (by decide)), hkept _ (hother _ (by decide))⟩
  rw [← hukey]
  exact hreached u hu

end Selections

end Stencil
