import Stencil.Document.Bank
import Stencil.Proofs.Reconcile.Banks

/-!
# Banks of three sides

A bank that the user edited is united with the bank of a release, where the bank of the last release
tells what the user has taken out from what is new.

* `BankVerdict.Gains` — the options that a bank gains, which `BankVerdict.exists_foldl_pushOption`
  says of options that are pushed one after another;
* `BankVerdict.three_way_union` — the bank that results, and which options of the user are in it;
* `BankVerdict.added_option_not_always_kept` — a copy that lacked options does not know that the
  user has added some.
-/

namespace Stencil

/-! ## Alike options -/

namespace Bank

variable {b c : Bank} {value : Localized}

theorem hasOption_congr {o p : Localized} (h : o ≈ p) : b.hasOption o ↔ b.hasOption p := by
  rw [hasOption_iff, hasOption_iff]
  exact exists_congr fun a => and_congr_right fun _ =>
    ⟨fun ha => Setoid.trans ha h, fun ha => Setoid.trans ha (Setoid.symm h)⟩

/-- Whether a bank has an option depends on its options alone. -/
theorem hasOption_of_options_eq (h : b.options = c.options) :
    b.hasOption value = c.hasOption value := by
  rw [hasOption, h, hasOption]

theorem exists_alike_of_allAlike {os ps : List Localized} (h : AllAlike os ps)
    (hvalue : ∃ o ∈ os, o ≈ value) : ∃ p ∈ ps, p ≈ value := by
  induction os generalizing ps with
  | nil => simp at hvalue
  | cons o os ih =>
    cases ps with
    | nil => exact h.elim
    | cons p ps =>
      obtain ⟨hop, hrest⟩ := h
      rw [List.exists_mem_cons_iff] at hvalue ⊢
      exact hvalue.imp (Setoid.trans (Setoid.symm hop)) (ih hrest)

theorem hasOption_iff_of_allAlike {os : List Localized} (h : AllAlike b.options os) :
    b.hasOption value ↔ ∃ o ∈ os, o ≈ value := by
  rw [hasOption_iff]
  exact ⟨exists_alike_of_allAlike h, exists_alike_of_allAlike (AllAlike.symm h)⟩

theorem hasOption_of_allAlike (h : AllAlike b.options c.options) :
    b.hasOption value ↔ c.hasOption value := by
  rw [hasOption_iff_of_allAlike h, hasOption_iff]

/-- The label and the category of a bank that has both are compared. -/
theorem headerDiffers_eq_false_iff (h : b.absent = {}) :
    b.headerDiffers c = false ↔ b.label ≈ c.label ∧ b.category = c.category := by
  simp [headerDiffers, h]

/-- There is nothing of the user in a bank: it is blank, or there is a last release and its options
are missing or are those of that release. -/
def Unedited (own : Bank) (prior : Option Bank) : Prop :=
  own.isBlank ∨ ∃ p, prior = some p ∧ (own.absent.options ∨ AllAlike p.options own.options)

end Bank

namespace Reconcile.BankVerdict

open Bank

variable {own system b : Bank} {prior : Option Bank} {options added : List Localized}
  {o p a : Localized}

/-! ## Gained options -/

/-- The options among `options` that a bank gains: those that are like none of its own or of the
last release, in their order, and of those that are alike the first only. -/
structure Gains (b : Bank) (prior : Option Bank) (options added : List Localized) : Prop where
  sublist : added.Sublist options
  distinct : added.Pairwise fun o p => ¬ o ≈ p
  mem_iff : ∀ o, (∃ a ∈ added, a ≈ o) ↔
    (∃ p ∈ options, p ≈ o) ∧ ¬ (b.hasOption o ∨ prior.any (·.hasOption o))
  first : ∀ a ∈ added, options.find? (fun o => decide (o ≈ a)) = some a

theorem old_congr (h : o ≈ p) :
    b.hasOption o ∨ prior.any (·.hasOption o) ↔ b.hasOption p ∨ prior.any (·.hasOption p) := by
  refine or_congr (hasOption_congr h) ?_
  cases prior with
  | none => rfl
  | some q => exact hasOption_congr h

theorem Gains.new (h : Gains b prior options added) (ha : a ∈ added) :
    ¬ (b.hasOption a ∨ prior.any (·.hasOption a)) :=
  ((h.mem_iff a).1 ⟨a, ha, Setoid.refl a⟩).2

theorem Gains.of_options_eq {c : Bank} (h : Gains b prior options added)
    (hoptions : b.options = c.options) : Gains c prior options added where
  sublist := h.sublist
  distinct := h.distinct
  mem_iff o := by rw [h.mem_iff, hasOption_of_options_eq hoptions]
  first := h.first

/-- An option that the bank or the last release has is passed over. -/
theorem Gains.cons_of_old (h : Gains b prior options added)
    (hold : b.hasOption o ∨ prior.any (·.hasOption o)) : Gains b prior (o :: options) added := by
  refine ⟨h.sublist.cons o, h.distinct, fun p => ?_, fun a ha => ?_⟩
  · rw [h.mem_iff, List.exists_mem_cons_iff, and_congr_left_iff]
    exact fun hp => (or_iff_right fun hop => hp ((old_congr hop).1 hold)).symm
  · have hne : ¬ o ≈ a := fun hoa => h.new ha ((old_congr hoa).1 hold)
    rw [List.find?_cons_of_neg (by simpa using hne)]
    exact h.first a ha

/-- A new option comes in front of what is gained once the bank has it. -/
theorem Gains.cons_of_new (h : Gains { b with options := b.options ++ [o] } prior options added)
    (hnew : ¬ (b.hasOption o ∨ prior.any (·.hasOption o))) :
    Gains b prior (o :: options) (o :: added) := by
  have hpushed (p : Localized) :
      ({ b with options := b.options ++ [o] } : Bank).hasOption p ↔ b.hasOption p ∨ o ≈ p := by
    simp [hasOption, or_comm]
  have hne {a : Localized} (ha : a ∈ added) : ¬ o ≈ a := fun hoa =>
    h.new ha (.inl ((hpushed a).2 (.inr hoa)))
  refine ⟨h.sublist.cons_cons o, List.pairwise_cons.2 ⟨fun a => hne, h.distinct⟩, fun p => ?_,
    fun a ha => ?_⟩
  · rw [List.exists_mem_cons_iff, List.exists_mem_cons_iff, h.mem_iff, hpushed]
    by_cases hop : o ≈ p
    · simpa [hop] using mt (old_congr hop).2 hnew
    · simp [hop]
  · rcases List.mem_cons.1 ha with rfl | ha
    · exact List.find?_cons_of_pos (decide_eq_true (Setoid.refl a))
    · rw [List.find?_cons_of_neg (by simpa using hne ha)]
      exact h.first a ha

/-- Options that are pushed one after another, but for those of the last release, are gained. -/
theorem exists_foldl_pushOption (prior : Option Bank) (options : List Localized) (b : Bank) :
    ∃ added, (options.filter fun o => !prior.any (·.hasOption o)).foldl pushOption b =
        { b with options := b.options ++ added } ∧ Gains b prior options added := by
  induction options generalizing b with
  | nil => exact ⟨[], by simp, .slnil, .nil, by simp, by simp⟩
  | cons o os ih =>
    by_cases hprior : prior.any (·.hasOption o)
    · rw [List.filter_cons_of_neg (by simpa using hprior)]
      obtain ⟨added, hfold, hgains⟩ := ih b
      exact ⟨added, hfold, hgains.cons_of_old (.inr hprior)⟩
    · rw [List.filter_cons_of_pos (by simpa using hprior), List.foldl_cons]
      by_cases hown : b.hasOption o
      · rw [pushOption, if_pos hown]
        obtain ⟨added, hfold, hgains⟩ := ih b
        exact ⟨added, hfold, hgains.cons_of_old (.inl hown)⟩
      · rw [pushOption, if_neg hown]
        obtain ⟨added, hfold, hgains⟩ := ih { b with options := b.options ++ [o] }
        refine ⟨o :: added, ?_, hgains.cons_of_new (not_or.2 ⟨hown, hprior⟩)⟩
        rw [hfold, List.append_assoc]
        rfl

/-- Nothing is gained from options that the bank has. -/
theorem gains_nil (h : ∀ o ∈ options, b.hasOption o) : Gains b prior options [] := by
  refine ⟨List.nil_sublist _, .nil, fun o => ?_, by simp⟩
  refine iff_of_false (by simp) ?_
  rintro ⟨⟨p, hp, hpo⟩, hnew⟩
  exact hnew (.inl ((hasOption_congr hpo).1 (h p hp)))

theorem Gains.eq_nil (hgains : Gains b prior options added) (h : ∀ o ∈ options, b.hasOption o) :
    added = [] := by
  rw [List.eq_nil_iff_forall_not_mem]
  intro a ha
  exact hgains.new ha (.inl (h a (hgains.sublist.subset ha)))

/-! ## The bank that results -/

theorem unedited_iff :
    own.Unedited prior ↔
      own.isBlank ∨ prior.any fun p => own.absent.options || p.sameOptions own := by
  simp [Unedited, Option.any_eq_true, sameOptions]

/-- The system's bank takes the place of one that is unedited. -/
theorem result_of_unedited (h : own.Unedited prior) :
    (of own prior (some system)).result own = system := by
  rcases unedited_iff.1 h with hblank | hprior
  · exact result_of_isBlank hblank
  · simp only [of, hprior, if_true]
    split
    · rfl
    · split <;> rfl

/-- An edited bank is like the system's, with what it lacks, or gains the new options. -/
theorem result_of_edited (system : Bank) (h : ¬ own.Unedited prior) :
    (own.fillAbsent system).headerDiffers system = false ∧
        (own.fillAbsent system).sameOptions system ∧
        (of own prior (some system)).result own = system ∨
      (of own prior (some system)).result own =
        withNewOptions (own.fillAbsent system) prior system := by
  obtain ⟨hblank, hprior⟩ := not_or.1 (mt unedited_iff.2 h)
  simp only [of, if_neg hblank, if_neg hprior]
  split
  · rename_i hsame
    simp only [Bool.and_eq_true, Bool.not_eq_true'] at hsame
    exact .inl ⟨hsame.1, hsame.2, rfl⟩
  · exact .inr rfl

/-- An edited bank keeps what it has, takes what it lacks from the system's bank and gains the new
options. -/
theorem exists_gains (system : Bank) (h : ¬ own.Unedited prior) :
    let bank := (of own prior (some system)).result own
    let filled := own.fillAbsent system
    bank.label ≈ filled.label ∧ bank.category = filled.category ∧
      ∃ added, Gains filled prior system.options added ∧
        AllAlike bank.options (filled.options ++ added) := by
  intro bank filled
  rcases result_of_edited system h with ⟨hheader, hoptions, hresult⟩ | hresult
  · have hbank : bank = system := hresult
    have hlike : AllAlike filled.options system.options := of_decide_eq_true hoptions
    obtain ⟨hlabel, hcategory⟩ := (headerDiffers_eq_false_iff (b := filled) rfl).1 hheader
    rw [hbank]
    refine ⟨Setoid.symm hlabel, hcategory.symm, [], ?_, ?_⟩
    · exact gains_nil fun o ho => (hasOption_of_allAlike hlike).2 (hasOption_of_mem ho)
    · rw [List.append_nil]
      exact AllAlike.symm hlike
  · obtain ⟨added, hadded, hgains⟩ := exists_foldl_pushOption prior system.options filled
    have hbank : bank = { filled with options := filled.options ++ added } := hresult.trans hadded
    rw [hbank]
    exact ⟨Setoid.refl _, rfl, added, hgains, AllAlike.refl _⟩

/-- A bank that lacks options gets those of the system's bank. -/
theorem hasOption_result_of_absent (habsent : own.absent.options) :
    ((of own prior (some system)).result own).hasOption o ↔ system.hasOption o := by
  by_cases h : own.Unedited prior
  · rw [result_of_unedited h]
  · obtain ⟨-, -, added, hgains, hoptions⟩ := exists_gains system h
    have hfilled : (own.fillAbsent system).options = system.options := by
      simp [fillAbsent, habsent]
    rw [hgains.eq_nil fun o ho => hasOption_of_mem (hfilled ▸ ho), List.append_nil, hfilled]
      at hoptions
    exact hasOption_of_allAlike hoptions

/-- An edited bank that has options keeps them and gets the new ones. -/
theorem hasOption_result_of_present (habsent : ¬ own.absent.options) (h : ¬ own.Unedited prior) :
    ((of own prior (some system)).result own).hasOption o ↔
      own.hasOption o ∨ system.hasOption o ∧ ¬ prior.any (·.hasOption o) := by
  obtain ⟨-, -, added, hgains, hoptions⟩ := exists_gains system h
  have hfilled : (own.fillAbsent system).options = own.options := by simp [fillAbsent, habsent]
  rw [hasOption_iff_of_allAlike hoptions, hfilled]
  simp only [List.mem_append, or_and_right, exists_or]
  rw [hgains.mem_iff, ← hasOption_iff, ← hasOption_iff, hasOption_of_options_eq hfilled]
  tauto

/-- An unedited bank that has options has those of the last release. -/
theorem any_hasOption_of_unedited (hblank : ¬ own.isBlank) (habsent : ¬ own.absent.options)
    (h : own.Unedited prior) : prior.any (·.hasOption o) ↔ own.hasOption o := by
  obtain ⟨p, rfl, hp⟩ := h.resolve_left hblank
  exact hasOption_of_allAlike (hp.resolve_left habsent)

/-- **Banks are united from three sides.** The system's bank takes the place of one that is blank,
or of which the options are missing or those of the last release. Any other bank keeps its label,
its category and its options, takes those it lacks from the system's bank, and gains exactly the
options of the system's bank that neither it nor the last release has. So a bank that is not blank
and has options keeps those that the user has added, and does not get back those that the user has
taken out; one that counts as lacking options has those of the system's bank and no others. -/
theorem three_way_union (own : Bank) (prior : Option Bank) (system : Bank) :
    let bank := (of own prior (some system)).result own
    let options := if own.absent.options then system.options else own.options
    (own.Unedited prior → bank = system) ∧
      (¬ own.Unedited prior →
        bank.label ≈ (if own.absent.label then system.label else own.label) ∧
        bank.category = (if own.absent.category then system.category else own.category) ∧
        ∃ added, Gains { own with options } prior system.options added ∧
          AllAlike bank.options (options ++ added)) ∧
      (¬ own.isBlank → ∀ o,
        (own.hasOption o → ¬ prior.any (·.hasOption o) →
          (bank.hasOption o ↔ (own.absent.options → system.hasOption o))) ∧
        (prior.any (·.hasOption o) → ¬ own.hasOption o →
          (bank.hasOption o ↔ own.absent.options ∧ system.hasOption o))) := by
  intro bank options
  refine ⟨result_of_unedited, fun h => ?_, fun hblank o => ?_⟩
  · obtain ⟨hlabel, hcategory, added, hgains, hoptions⟩ := exists_gains system h
    exact ⟨hlabel, hcategory, added, hgains.of_options_eq rfl, hoptions⟩
  · by_cases habsent : own.absent.options
    · have hbank : bank.hasOption o ↔ system.hasOption o := hasOption_result_of_absent habsent
      simp [habsent, hbank]
    · by_cases h : own.Unedited prior
      · have hprior := any_hasOption_of_unedited (o := o) hblank habsent h
        exact ⟨fun hown hnew => absurd (hprior.2 hown) hnew,
          fun hold hgone => absurd (hprior.1 hold) hgone⟩
      · have hbank : bank.hasOption o ↔
            own.hasOption o ∨ system.hasOption o ∧ ¬ prior.any (·.hasOption o) :=
          hasOption_result_of_present habsent h
        rw [hbank]
        tauto

/-- A copy that lacks options does not know when some are added, and loses them. -/
theorem added_option_not_always_kept :
    let stored : Bank :=
      { label := .plain "Mood", category := "feel", absent := { options := true } }
    let own := stored.pushOption (.plain "wild")
    let system : Bank :=
      { label := .plain "Mood", category := "feel", options := [.plain "calm"] }
    let bank := (of own none (some system)).result own
    Bank.ofJson? (.obj [("label", .str "Mood"), ("category", .str "feel")]) = some stored ∧
      ¬ own.isBlank ∧ own.hasOption (.plain "wild") ∧ bank = system ∧
      ¬ bank.hasOption (.plain "wild") := by
  refine ⟨rfl, ?_, ?_, rfl, ?_⟩ <;> decide +kernel

end Reconcile.BankVerdict

end Stencil
