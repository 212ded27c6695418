import Stencil.Proofs.Bank.Key
import Stencil.Proofs.Reconcile.Outcome
import Stencil.Proofs.Template.KeyRenaming

/-!
# Tokens of imported templates

The templates of a release are rewritten with the keys under which its banks are imported. Such a
key is made of the old key, a suffix and perhaps a number, and it is read again when the template
is.

* `templates_renameKeys` — the templates of a library with renamed keys;
* `EndsInNumeral` — the end of an imported key is a numeral behind an underscore;
  `group_isSome_iff_endsInNumeral` says that this is when the key is read as one with a group;
* `imported_tokens_readBack_iff` — which tokens are read under the key that they were given.
-/

namespace Stencil

open Text Placeholder

/-! ## Templates of a library with renamed keys -/

theorem Library.templates_renameKeys (renames : Renames) (l : Library) :
    (l.renameKeys renames).templates = l.templates.map (Template.renameKeys renames) := by
  rw [renameKeys]
  split
  · rename_i hempty
    rw [List.isEmpty_iff.1 hempty]
    exact (List.map_id _).symm
  · rfl

namespace Reconcile

variable {config : ReconcileConfig} {user : Library} {baseline : Option Library}
  {release : Library} {suffix key newKey : String}

/-! ## Keys that are read as keys with a group -/

/-- What stands behind the last underscore of the suffix makes up a numeral with the number that the
key got. -/
def EndsInNumeral (suffix key newKey : String) : Prop :=
  ∃ before after number, splitLast? '_' suffix.toList = some (before, after) ∧
    newKey.toList = (renameFamily suffix key).toList ++ number ∧ isNumeral (after ++ number)

/-- **A key of a rename family is read as one with a group if its end is a numeral.** -/
theorem group_isSome_iff_endsInNumeral (hsuffix : ∃ c ∈ suffix.toList, c.isDigit = false)
    (hfamily : inFamily newKey (renameFamily suffix key)) :
    (Name.split newKey).group.isSome ↔ EndsInNumeral suffix key newKey := by
  obtain ⟨number, hnew, hdigits⟩ := inFamily_iff.1 hfamily
  have hdash : '_' ∉ number := fun hmem => absurd (hdigits _ hmem) (by decide)
  have hlist : newKey.toList = key.toList ++ '_' :: (suffix.toList ++ number) := by
    simp [hnew, renameFamily]
  rw [Name.split, Name.group_isSome_iff]
  cases hsplit : splitLast? '_' suffix.toList with
  | none =>
    -- the last underscore stands before the suffix, and the suffix is no numeral
    have hkey : splitLast? '_' newKey.toList = some (key.toList, suffix.toList ++ number) := by
      refine splitLast?_eq_some_iff.2 ⟨hlist, ?_⟩
      rw [List.mem_append, not_or]
      exact ⟨splitLast?_eq_none_iff.1 hsplit, hdash⟩
    have hnumeral : ¬ isNumeral (suffix.toList ++ number) := by
      obtain ⟨c, hc, hdigit⟩ := hsuffix
      intro hall
      simp [(isNumeral_iff.1 hall).2 c (List.mem_append_left _ hc)] at hdigit
    simp [hkey, hnumeral, EndsInNumeral, hsplit]
  | some parts =>
    obtain ⟨before, after⟩ := parts
    obtain ⟨hparts, hafter⟩ := splitLast?_eq_some_iff.1 hsplit
    have hkey : splitLast? '_' newKey.toList =
        some (key.toList ++ '_' :: before, after ++ number) := by
      refine splitLast?_eq_some_iff.2 ⟨by simp [hlist, hparts], ?_⟩
      rw [List.mem_append, not_or]
      exact ⟨hafter, hdash⟩
    have hend : EndsInNumeral suffix key newKey ↔ isNumeral (after ++ number) := by
      simp [EndsInNumeral, hsplit, hnew]
    simp [hkey, hend]

/-! ## Characters of imported keys -/

theorem isKeyChar_renameSuffix (h : ∀ c ∈ config.renameSuffix.toList, Bank.isKeyChar c) :
    ∀ c ∈ (renameSuffix config).toList, Bank.isKeyChar c := by
  rw [renameSuffix]
  split
  · exact List.all_eq_true.1 (by decide +kernel)
  · exact h

theorem isKeyChar_of_inFamily (hkey : ∀ c ∈ key.toList, Bank.isKeyChar c)
    (hsuffix : ∀ c ∈ suffix.toList, Bank.isKeyChar c)
    (hfamily : inFamily newKey (renameFamily suffix key)) :
    ∀ c ∈ newKey.toList, Bank.isKeyChar c := by
  obtain ⟨number, hnew, hdigits⟩ := inFamily_iff.1 hfamily
  rw [hnew, renameFamily]
  simp only [String.toList_append, List.mem_append]
  rintro c (((hc | hc) | hc) | hc)
  · exact hkey c hc
  · obtain rfl : c = '_' := by simpa using hc
    decide
  · exact hsuffix c hc
  · exact Bank.isKeyChar_of_isDigit (hdigits c hc)

theorem ne_empty_of_inFamily (hfamily : inFamily newKey (renameFamily suffix key)) :
    newKey ≠ "" := by
  obtain ⟨number, hnew, -⟩ := inFamily_iff.1 hfamily
  rintro rfl
  simp [renameFamily] at hnew

/-! ## Tokens -/

/-- What is read in the place of a token when a release is imported: a token whose key keeps its
name is read as before, and one whose key is renamed is read under the new key with its group,
exactly if it has a group or the new key does not end in a numeral. -/
structure ReadAsImported (suffix : String) (plan : Renames) (u v : Token) : Prop where
  kept : u.baseKey ∉ plan.map Prod.fst → v.name = u.name
  renamed : ∀ newKey, (u.baseKey, newKey) ∈ plan →
    ((v.baseKey = newKey ∧ v.group? = u.group?) ↔
      (u.group? = none → ¬ EndsInNumeral suffix u.baseKey newKey))

/-- **The tokens of imported templates are read back**, in every language, unless the suffix for
renamed keys makes a numeral behind an underscore. -/
theorem imported_tokens_readBack_iff (config : ReconcileConfig) (user : Library)
    (baseline : Option Library) (release : Library)
    (hsuffix : ∀ c ∈ config.renameSuffix.toList, Bank.isKeyChar c)
    (hkeys : ∀ key ∈ release.banks.keys, ∀ c ∈ key.toList, Bank.isKeyChar c) :
    List.Forall₂
      (fun t t' => ∀ language, List.Forall₂
        (ReadAsImported (renameSuffix config) (bankPlan config user baseline release))
        (t.tokens language) (t'.tokens language))
      release.templates (importedRelease config user baseline release).templates := by
  have hchars : ∀ key newKey, (key, newKey) ∈ bankPlan config user baseline release →
      ∀ c ∈ newKey.toList, Bank.isKeyChar c := by
    intro key newKey hmem
    obtain ⟨⟨system, hsystem, -⟩, hfamily, -⟩ := planned_of_mem hmem
    exact isKeyChar_of_inFamily (hkeys key (OrderedMap.mem_keys_of_get? hsystem))
      (isKeyChar_renameSuffix hsuffix) hfamily
  rw [importedRelease, Library.templates_renameKeys]
  refine List.forall₂_map_right_iff.2 (List.forall₂_same.2 fun t _ language => ?_)
  rw [Template.tokens_renameKeys]
  refine (forall₂_name_renameBases fun u _ newKey hget => ?_).imp fun u v hname => ⟨?_, ?_⟩
  · have hmem := Renames.mem_of_get? hget
    have hne := ne_empty_of_inFamily (planned_of_mem hmem).inFamily
    exact (Bank.isRawName_of_isKeyChar hne (hchars _ _ hmem)).join fun g =>
      u.isNumeral_of_group?_eq_some
  · intro hkept
    rw [hname, Renames.get?_eq_none_iff.2 hkept, Option.elim_none]
  · intro newKey hmem
    have hfamily := (planned_of_mem hmem).inFamily
    rw [(Renames.get?_eq_some_iff nodup_keys_bankPlan).2 hmem, Option.elim_some] at hname
    have hread := Bank.split_trim_join_iff (ne_empty_of_inFamily hfamily) (hchars _ _ hmem)
      fun g => u.isNumeral_of_group?_eq_some
    rw [← hname, Token.name_eq_iff] at hread
    rw [← group_isSome_iff_endsInNumeral (exists_nondigit_renameSuffix config) hfamily,
      Option.not_isSome_iff_eq_none]
    refine hread.trans ?_
    tauto

/-- A suffix that ends in a digit, a key that gets a number since one of its rename family is taken,
and tokens with and without a group. -/
theorem imported_tokens_readBack_of_color :
    let mark (name : String) := String.ofList (braced name.toList)
    let color (label : String) : Bank := { label := .plain label, options := [.plain label] }
    let user : Library := { banks := .ofList [("color", color "own")] }
    let release : Library :=
      { templates := [{ id := "t", content := .plain (mark "color" ++ " " ++ mark "color_1") }]
        banks := .ofList [("color", color "new"), ("color_v2", color "other")] }
    let config : ReconcileConfig := { renameSuffix := "v2" }
    bankPlan config user (some {}) release = [("color", "color_v22")] ∧
      List.Forall₂
        (fun t t' => ∀ language, List.Forall₂
          (ReadAsImported (renameSuffix config) (bankPlan config user (some {}) release))
          (t.tokens language) (t'.tokens language))
        release.templates (importedRelease config user (some {}) release).templates := by
  intro mark color user release config
  have hkeys : release.banks.keys.all (·.toList.all Bank.isKeyChar) := by decide +kernel
  refine ⟨by decide +kernel, imported_tokens_readBack_iff config user (some {}) release
    (List.all_eq_true.1 (by decide +kernel)) fun key hkey => ?_⟩
  exact List.all_eq_true.1 (List.all_eq_true.1 hkeys key hkey)

/-- **A renamed key may be read as one with a group**: the suffix has a numeral behind its last
underscore, or it ends in an underscore and the key gets a number. -/
theorem imported_tokens_not_always_readBack :
    let mark (name : String) := String.ofList (braced name.toList)
    let color (label : String) : Bank := { label := .plain label, options := [.plain label] }
    let user : Library := { banks := .ofList [("color", color "own")] }
    let release (keys : List String) : Library :=
      { templates := [{ id := "t", content := .plain (mark "color") }]
        banks := .ofList (keys.map fun key => (key, color "new")) }
    let plan (suffix : String) (keys : List String) : Renames :=
      bankPlan { renameSuffix := suffix } user (some {}) (release keys)
    let names (suffix : String) (keys : List String) : List (List Name) :=
      (importedRelease { renameSuffix := suffix } user (some {}) (release keys)).templates.map
        fun t => (t.tokens "en").map Token.name
    (plan "v_2" ["color"] = [("color", "color_v_2")] ∧
        names "v_2" ["color"] = [[⟨"color_v", some "2"⟩]]) ∧
      plan "sys_" ["color", "color_sys_"] = [("color", "color_sys_2")] ∧
        names "sys_" ["color", "color_sys_"] = [[⟨"color_sys", some "2"⟩]] := by
  decide +kernel

end Reconcile

end Stencil
