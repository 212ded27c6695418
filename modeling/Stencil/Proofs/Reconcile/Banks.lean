import Mathlib.Data.Finset.Card
import Stencil.Proofs.OrderedMap
import Stencil.Reconcile.Banks

/-!
# What becomes of a bank

The verdict on one bank, and the banks of a reconciled library key by key.

* `Bank.optionSet`, `Bank.repetitions`, `Bank.lacking` — the options as a set, how many more are
  listed than are in the set, and how many of another bank's are not in it;
* `Bank.hasOption_of_distinct` — equally many options, of which the ones are all among the others
  and none comes twice, are the same options;
* `BankVerdict.result_cases` — the bank that results is the system's, or the user's with what it
  lacked and the new options;
* `BankVerdict.result_again` — the verdict of a pass in which the last release is the new one;
* `get?_mergeBanks`, `mem_keys_mergeBanks` — the banks of a reconciled library.
-/

namespace Stencil

namespace Bank

variable {b c : Bank} {value : Localized}

/-! ## Options -/

theorem hasOption_iff : b.hasOption value ↔ ∃ o ∈ b.options, o ≈ value := by
  simp [hasOption]

theorem hasOption_of_mem (h : value ∈ b.options) : b.hasOption value :=
  hasOption_iff.2 ⟨value, h, Setoid.refl value⟩

/-- The options of a bank are pairwise unlike. -/
def DistinctOptions (b : Bank) : Prop := b.options.Pairwise fun o p => ¬ o ≈ p

instance (b : Bank) : Decidable b.DistinctOptions :=
  inferInstanceAs (Decidable (b.options.Pairwise _))

/-- The options of a bank as a set, in which options that are alike are one. -/
def optionSet (b : Bank) : Finset (Quotient (inferInstance : Setoid Localized)) :=
  (b.options.map (Quotient.mk _)).toFinset

/-- How many more options a bank lists than there are in the set. -/
def repetitions (b : Bank) : Nat := b.options.length - b.optionSet.card

/-- How many options of `c` are like none of `b`, where options that are alike count once. -/
def lacking (b c : Bank) : Nat := (c.optionSet \ b.optionSet).card

theorem mk_mem_optionSet : Quotient.mk _ value ∈ b.optionSet ↔ b.hasOption value := by
  rw [optionSet, List.mem_toFinset, List.mem_map, hasOption_iff]
  exact exists_congr fun p => and_congr_right fun _ => Quotient.eq

theorem optionSet_subset_iff : b.optionSet ⊆ c.optionSet ↔ ∀ o ∈ b.options, c.hasOption o := by
  constructor
  · intro h o ho
    exact mk_mem_optionSet.1 (h (mk_mem_optionSet.2 (hasOption_of_mem ho)))
  · intro h q hq
    obtain ⟨o, ho, rfl⟩ := List.mem_map.1 (List.mem_toFinset.1 hq)
    exact mk_mem_optionSet.2 (h o ho)

theorem card_add_repetitions (b : Bank) :
    b.optionSet.card + b.repetitions = b.options.length := by
  have hle := List.toFinset_card_le (b.options.map (Quotient.mk inferInstance))
  rw [List.length_map] at hle
  exact Nat.add_sub_of_le hle

theorem repetitions_eq_zero (h : b.DistinctOptions) : b.repetitions = 0 := by
  have hnodup : (b.options.map (Quotient.mk inferInstance)).Nodup :=
    List.pairwise_map.2 (h.imp fun hne heq => hne (Quotient.exact heq))
  rw [repetitions, optionSet, List.toFinset_card_of_nodup hnodup, List.length_map, Nat.sub_self]

theorem lacking_eq_zero_iff : b.lacking c = 0 ↔ ∀ o ∈ c.options, b.hasOption o := by
  rw [lacking, Finset.card_eq_zero, Finset.sdiff_eq_empty_iff_subset, optionSet_subset_iff]

/-- A bank with no other options than `c` and those it lacks make up the options of `c`. -/
theorem lacking_add_card (h : ∀ o ∈ b.options, c.hasOption o) :
    b.lacking c + b.optionSet.card = c.optionSet.card :=
  Finset.card_sdiff_add_card_eq_card (optionSet_subset_iff.2 h)

/-- A bank whose options come once each and are all in a bank with as many has all options of that
bank. -/
theorem hasOption_of_distinct (hdistinct : b.DistinctOptions)
    (hlength : b.options.length = c.options.length) (hsub : ∀ o ∈ b.options, c.hasOption o)
    (h : value ∈ c.options) : b.hasOption value := by
  have hb := b.card_add_repetitions
  have hc := c.card_add_repetitions
  have hcard := lacking_add_card hsub
  rw [repetitions_eq_zero hdistinct] at hb
  have hnone : b.lacking c = 0 := by omega
  exact lacking_eq_zero_iff.1 hnone value h

theorem sameContents_iff :
    b.sameContents c ↔
      (b.absent.label ∨ b.label ≈ c.label) ∧
        (b.absent.options ∨
          b.options.length = c.options.length ∧ ∀ o ∈ b.options, c.hasOption o) := by
  simp [sameContents]

theorem sameContents_refl (b : Bank) : b.sameContents b :=
  sameContents_iff.2 ⟨.inr (Setoid.refl _), .inr ⟨rfl, fun _ ho => hasOption_of_mem ho⟩⟩

theorem headerDiffers_self (b : Bank) : b.headerDiffers b = false := by
  rw [headerDiffers, decide_eq_true (Setoid.refl b.label)]
  simp

theorem sameOptions_refl (b : Bank) : b.sameOptions b := decide_eq_true (AllAlike.refl _)

theorem sameOptions_comm (b c : Bank) : b.sameOptions c = c.sameOptions b := by
  rw [sameOptions, sameOptions, Bool.eq_iff_iff, decide_eq_true_iff, decide_eq_true_iff]
  exact ⟨AllAlike.symm, AllAlike.symm⟩

/-! ## A copy with what it lacked -/

theorem fillAbsent_of_absent_eq (h : b.absent = {}) (c : Bank) : b.fillAbsent c = b := by
  obtain ⟨label, category, options, absent⟩ := b
  subst h
  rfl

theorem fillAbsent_self (b : Bank) : b.fillAbsent b = { b with absent := {} } := by
  simp [fillAbsent]

theorem sameContents_fillAbsent (h : b.sameContents c) : (b.fillAbsent c).sameContents c := by
  obtain ⟨hlabel, hoptions⟩ := sameContents_iff.1 h
  refine sameContents_iff.2 ⟨.inr ?_, .inr ?_⟩
  · by_cases habsent : b.absent.label
    · have htaken : (b.fillAbsent c).label = c.label := if_pos habsent
      exact htaken ▸ Setoid.refl (b.fillAbsent c).label
    · simpa [fillAbsent, habsent] using hlabel.resolve_left habsent
  · by_cases habsent : b.absent.options
    · simpa [fillAbsent, habsent] using fun _ => hasOption_of_mem
    · simpa [fillAbsent, habsent] using hoptions.resolve_left habsent

/-- A copy with the contents of another bank has every option of that bank, once it has what it
lacked. -/
theorem hasOption_fillAbsent (hdistinct : b.DistinctOptions) (h : b.sameContents c)
    (hvalue : value ∈ c.options) : (b.fillAbsent c).hasOption value := by
  by_cases habsent : b.absent.options
  · exact hasOption_of_mem (by simpa [fillAbsent, habsent] using hvalue)
  · obtain ⟨hlength, hsub⟩ := (sameContents_iff.1 h).2.resolve_left habsent
    obtain ⟨o, ho, heq⟩ := hasOption_iff.1 (hasOption_of_distinct hdistinct hlength hsub hvalue)
    exact hasOption_iff.2 ⟨o, by simpa [fillAbsent, habsent] using ho, heq⟩

end Bank

/-- No bank of the library lists an option twice. -/
def Library.DistinctOptions (l : Library) : Prop := ∀ b ∈ l.banks.values, b.DistinctOptions

instance (l : Library) : Decidable l.DistinctOptions :=
  inferInstanceAs (Decidable (∀ b ∈ l.banks.values, b.DistinctOptions))

theorem Library.DistinctOptions.of_get? {l : Library} {key : String} {own : Bank}
    (h : l.DistinctOptions) (hown : l.banks.get? key = some own) : own.DistinctOptions :=
  h own (List.mem_map_of_mem (f := Prod.snd) (OrderedMap.get?_eq_some_iff.1 hown))

namespace Reconcile.BankVerdict

open Bank

variable {own system : Bank} {prior : Option Bank}

/-! ## New options -/

theorem foldl_pushOption_of_hasOption {options : List Localized} {b : Bank}
    (h : ∀ o ∈ options, b.hasOption o) : options.foldl pushOption b = b := by
  induction options with
  | nil => rfl
  | cons o os ih =>
    rw [List.foldl_cons, pushOption, if_pos (h o List.mem_cons_self)]
    exact ih fun p hp => h p (List.mem_cons_of_mem _ hp)

/-- A bank gains nothing if it has every option that the last release did not have. -/
theorem withNewOptions_eq_self {b : Bank}
    (h : ∀ o ∈ system.options, prior.any (·.hasOption o) ∨ b.hasOption o) :
    withNewOptions b prior system = b := by
  refine foldl_pushOption_of_hasOption fun o ho => ?_
  obtain ⟨ho, hnew⟩ := List.mem_filter.1 ho
  rcases h o ho with hprior | hown
  · simp [hprior] at hnew
  · exact hown

theorem withNewOptions_again (b system : Bank) :
    withNewOptions b (some system) system = b :=
  withNewOptions_eq_self fun _ ho => .inl (hasOption_of_mem ho)

theorem absent_foldl_pushOption (options : List Localized) (b : Bank) :
    (options.foldl pushOption b).absent = b.absent := by
  induction options generalizing b with
  | nil => rfl
  | cons o os ih =>
    rw [List.foldl_cons, ih, pushOption]
    split <;> rfl

/-! ## Verdicts -/

/-- The system's bank results, or the user's with what it lacked and the new options. -/
theorem result_cases (own : Bank) (prior : Option Bank) (system : Bank) :
    (of own prior (some system)).result own = system ∨
      (of own prior (some system)).result own =
        withNewOptions (own.fillAbsent system) prior system := by
  simp only [of]
  split
  · exact .inl rfl
  · split
    · exact .inl rfl
    · split
      · exact .inl rfl
      · exact .inr rfl

/-- A blank bank makes room for the system's. -/
theorem result_of_isBlank (h : own.isBlank) :
    (of own prior (some system)).result own = system := by
  simp only [of, if_pos h]
  rfl

/-- A bank that results is the system's or lacks nothing. -/
theorem result_eq_or_absent (own : Bank) (prior : Option Bank) (system : Bank) :
    (of own prior (some system)).result own = system ∨
      ((of own prior (some system)).result own).absent = {} := by
  rcases result_cases own prior system with h | h
  · exact .inl h
  · rw [h]
    exact .inr (absent_foldl_pushOption _ _)

/-- The system's own bank stays as it is. -/
theorem result_self (prior : Option Bank) (system : Bank) :
    (of system prior (some system)).result system = system := by
  have hheader : ({ system with absent := {} } : Bank).headerDiffers system = false :=
    headerDiffers_self { system with absent := {} }
  have hoptions : ({ system with absent := {} } : Bank).sameOptions system = true :=
    sameOptions_refl system
  simp only [of, fillAbsent_self, hheader, hoptions]
  split <;> rfl

/-- A bank with the contents of the system's keeps them, if none of its options comes twice. -/
theorem sameContents_result (hdistinct : own.DistinctOptions) (h : own.sameContents system) :
    ((of own prior (some system)).result own).sameContents system := by
  rcases result_cases own prior system with hr | hr
  · rw [hr]
    exact sameContents_refl system
  · rw [hr, withNewOptions_eq_self fun o ho => .inr (hasOption_fillAbsent hdistinct h ho)]
    exact sameContents_fillAbsent h

/-! ## A second pass -/

/-- If the last release is the new one, nothing is told about a bank. -/
theorem note?_again (key : String) (own : Bank) (system : Option Bank) :
    (of own system system).note? key = none := by
  cases system with
  | none => rfl
  | some system =>
    simp only [of, withNewOptions_again, Option.all_some, headerDiffers_self]
    split
    · rfl
    · split
      · rfl
      · split
        · rfl
        · simp [note?]

/-- If the last release is the new one, a bank that lacks nothing stays as it is, unless it is blank
or has the options of the system's bank. -/
theorem result_again (h : own.absent = {}) :
    (of own (some system) (some system)).result own =
      if own.isBlank || own.sameOptions system then system else own := by
  have hoptions : own.absent.options = false := by rw [h]
  simp only [of, fillAbsent_of_absent_eq h, withNewOptions_again, Option.any_some, hoptions,
    Bool.false_or, sameOptions_comm system own]
  by_cases hblank : own.isBlank <;> by_cases hsame : own.sameOptions system <;>
    by_cases hheader : own.headerDiffers system <;> simp [hblank, hsame, hheader, result]

end Reconcile.BankVerdict

namespace Reconcile

variable {user : Library} {baseline : Option Library} {release : Library} {key : String}

/-! ## All banks -/

/-- The copy of a bank in the last release. -/
def priorBank? (baseline : Option Library) (key : String) : Option Bank :=
  baseline.bind (·.banks.get? key)

theorem mem_keys_addedBanks :
    key ∈ (addedBanks user baseline release).keys ↔
      key ∈ release.banks.keys ∧ key ∉ user.banks.keys ∧
        ∀ prior, baseline = some prior → key ∉ prior.banks.keys := by
  simp only [addedBanks, OrderedMap.mem_keys_filter, OrderedMap.mem_keys_iff (m := release.banks),
    Bool.and_eq_true, Bool.not_eq_true', ← Bool.not_eq_true, OrderedMap.contains_iff,
    Option.any_eq_true, not_exists, not_and, exists_and_right]

theorem keys_mergeBanks :
    (mergeBanks user baseline release).keys =
      user.banks.keys ++ (addedBanks user baseline release).keys := by
  have hnew : (addedBanks user baseline release).keys.filter (· ∉ user.banks.keys) =
      (addedBanks user baseline release).keys :=
    List.filter_eq_self.2 fun _ hk => decide_eq_true (mem_keys_addedBanks.1 hk).2.1
  rw [mergeBanks, OrderedMap.keys_insertAll, OrderedMap.keys_map, judgeBanks, OrderedMap.keys_map,
    hnew]

theorem get?_mergeBanks_of_own {own : Bank} (h : user.banks.get? key = some own) :
    (mergeBanks user baseline release).get? key =
      some
        ((BankVerdict.of own (priorBank? baseline key) (release.banks.get? key)).result own) := by
  have hadded : (addedBanks user baseline release).get? key = none :=
    OrderedMap.get?_eq_none_iff.2 fun hk =>
      (mem_keys_addedBanks.1 hk).2.1 (OrderedMap.mem_keys_of_get? h)
  rw [mergeBanks, OrderedMap.get?_insertAll, hadded, Option.none_or, judgeBanks,
    OrderedMap.get?_map, OrderedMap.get?_map, h]
  rfl

/-- A bank that the user does not have is added, unless the last release had one under its key. -/
theorem get?_mergeBanks_of_notMem {system : Bank} (h : key ∉ user.banks.keys) :
    (mergeBanks user baseline release).get? key = some system ↔
      release.banks.get? key = some system ∧
        ∀ prior, baseline = some prior → key ∉ prior.banks.keys := by
  have hjudged : (judgeBanks user baseline release).get? key = none := by
    rw [judgeBanks, OrderedMap.get?_map, OrderedMap.get?_eq_none_iff.2 h]
    rfl
  have huser : user.banks.contains key = false := by
    rw [← Bool.not_eq_true, OrderedMap.contains_iff]
    exact h
  rw [mergeBanks, OrderedMap.get?_insertAll, OrderedMap.get?_map, hjudged, Option.map_none,
    Option.or_none, addedBanks, OrderedMap.get?_filter, Option.filter_eq_some_iff, huser]
  cases baseline <;> simp [← Bool.not_eq_true, OrderedMap.contains_iff]

end Reconcile

end Stencil
