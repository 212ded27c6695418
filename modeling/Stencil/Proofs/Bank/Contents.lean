import Stencil.Document.Bank
import Stencil.Proofs.Reconcile.Banks

/-!
# Contents of banks

Two banks have the same contents if their labels are alike and each has the options of the other.
They are compared by a count: there are equally many options, and those of the first bank are all in
the second. This comes to the same as long as no bank lists an option twice.

* `Bank.SameSet` — what the comparison is meant to find out;
* `Bank.sameContents_iff_repetitions` — what the count finds out;
* `Bank.compared_as_sets_iff` — when both are the same, and when the comparison does not depend on
  which bank comes first;
* `Bank.not_always_compared_as_sets` — options that are listed twice.
-/

namespace Stencil.Bank

variable {b c : Bank}

/-! ## The comparison -/

/-- The labels are alike, and each bank has the options of the other. -/
def SameSet (b c : Bank) : Prop :=
  b.label ≈ c.label ∧ (∀ o ∈ b.options, c.hasOption o) ∧ ∀ o ∈ c.options, b.hasOption o

instance (b c : Bank) : Decidable (b.SameSet c) := inferInstanceAs (Decidable (_ ∧ _ ∧ _))

theorem SameSet.symm (h : b.SameSet c) : c.SameSet b := ⟨Setoid.symm h.1, h.2.2, h.2.1⟩

/-- **The count takes the repetitions of the first bank for options it lacks.** -/
theorem sameContents_iff_repetitions (hb : b.absent = {}) :
    b.sameContents c ↔
      b.label ≈ c.label ∧ (∀ o ∈ b.options, c.hasOption o) ∧
        b.repetitions = c.repetitions + b.lacking c := by
  have hcount (h : ∀ o ∈ b.options, c.hasOption o) :
      b.options.length = c.options.length ↔ b.repetitions = c.repetitions + b.lacking c := by
    have hb := b.card_add_repetitions
    have hc := c.card_add_repetitions
    have hcard := lacking_add_card h
    omega
  rw [sameContents_iff, hb, and_comm (a := _ = _)]
  simp only [Bool.false_eq_true, false_or]
  exact and_congr_right fun _ => and_congr_right hcount

/-- The count goes wrong for banks with the same label, the first of which has no other options than
the second: either both have the same set, but do not repeat equally many options, or the first
lacks some options and repeats just as many more. -/
def Miscounted (b c : Bank) : Prop :=
  b.label ≈ c.label ∧ (∀ o ∈ b.options, c.hasOption o) ∧
    (b.lacking c = 0 ∧ b.repetitions ≠ c.repetitions ∨
      0 < b.lacking c ∧ b.repetitions = c.repetitions + b.lacking c)

theorem sameContents_iff_sameSet_iff (hb : b.absent = {}) :
    (b.sameContents c ↔ b.SameSet c) ↔ ¬ b.Miscounted c := by
  rw [sameContents_iff_repetitions hb, SameSet, Miscounted]
  simp only [← lacking_eq_zero_iff]
  by_cases hlabel : b.label ≈ c.label
  · simp only [hlabel, true_and]
    omega
  · simp only [hlabel, false_and, not_false_eq_true]

/-- Banks that repeat equally many options are compared as sets. -/
theorem not_miscounted (h : b.repetitions = c.repetitions) : ¬ b.Miscounted c := by
  rintro ⟨-, -, h' | h'⟩ <;> omega

/-- Banks with the same set of options are compared by their numbers of options. -/
theorem SameSet.sameContents_iff (h : b.SameSet c) (hb : b.absent = {}) :
    b.sameContents c ↔ b.repetitions = c.repetitions := by
  have hlacking : b.lacking c = 0 := lacking_eq_zero_iff.2 h.2.2
  rw [sameContents_iff_repetitions hb, hlacking, Nat.add_zero]
  constructor
  · rintro ⟨-, -, hcount⟩
    exact hcount
  · exact fun hcount => ⟨h.1, h.2.1, hcount⟩

/-- The comparison depends on which bank comes first just if it takes different sets for the
same. -/
theorem sameContents_comm_iff (hb : b.absent = {}) (hc : c.absent = {}) :
    (b.sameContents c ↔ c.sameContents b) ↔
      (b.sameContents c ∨ c.sameContents b → b.SameSet c) := by
  constructor
  · rintro hcomm hsame
    have hboth : b.sameContents c ∧ c.sameContents b := by tauto
    obtain ⟨hlabel, hsub, -⟩ := (sameContents_iff_repetitions hb).1 hboth.1
    obtain ⟨-, hsub', -⟩ := (sameContents_iff_repetitions hc).1 hboth.2
    exact ⟨hlabel, hsub, hsub'⟩
  · intro hset
    by_cases hsame : b.SameSet c
    · rw [hsame.sameContents_iff hb, hsame.symm.sameContents_iff hc]
      exact eq_comm
    · tauto

/-- The order in which options are listed makes no difference. -/
theorem sameContents_of_perm {os ps : List Localized} (hos : os.Perm b.options)
    (hps : ps.Perm c.options) :
    ({ b with options := os } : Bank).sameContents { c with options := ps } =
      b.sameContents c := by
  have hhas (o : Localized) : ({ c with options := ps } : Bank).hasOption o ↔ c.hasOption o := by
    rw [hasOption_iff, hasOption_iff]
    exact exists_congr fun p => and_congr_left fun _ => hps.mem_iff
  rw [Bool.eq_iff_iff, sameContents_iff, sameContents_iff]
  simp only [hhas, hos.length_eq, hps.length_eq, hos.mem_iff]

/-- **Banks are compared as sets unless the count goes wrong.** Then, and only then, the answer is
not whether the labels are alike and each bank has the options of the other. It depends on which
bank comes first just if different sets are taken for the same. If no option comes twice, none of
this happens; and the order of the options never makes a difference. -/
theorem compared_as_sets_iff (hb : b.absent = {}) (hc : c.absent = {}) :
    ((b.sameContents c ↔ b.SameSet c) ↔ ¬ b.Miscounted c) ∧
      ((b.sameContents c ↔ c.sameContents b) ↔
        (b.sameContents c ∨ c.sameContents b → b.SameSet c)) ∧
      (b.DistinctOptions → c.DistinctOptions →
        (b.sameContents c ↔ b.SameSet c) ∧ (b.sameContents c ↔ c.sameContents b)) ∧
      ∀ os ps, os.Perm b.options → ps.Perm c.options →
        ({ b with options := os } : Bank).sameContents { c with options := ps } =
          b.sameContents c := by
  refine ⟨sameContents_iff_sameSet_iff hb, sameContents_comm_iff hb hc, fun hdb hdc => ?_,
    fun os ps => sameContents_of_perm⟩
  have hcount : b.repetitions = c.repetitions := by
    rw [repetitions_eq_zero hdb, repetitions_eq_zero hdc]
  have hset := (sameContents_iff_sameSet_iff hb).2 (not_miscounted hcount)
  have hset' := (sameContents_iff_sameSet_iff hc).2 (not_miscounted hcount.symm)
  refine ⟨hset, ?_⟩
  rw [hset, hset']
  exact ⟨SameSet.symm, SameSet.symm⟩

/-- Two banks that list the same options in another order, and the languages of one option too. -/
theorem compared_as_sets_of_reordered :
    let calm : Localized := .localized (.ofList [("cn", "平静"), ("en", "calm")])
    let calm' : Localized := .localized (.ofList [("en", "calm"), ("cn", "平静")])
    let b : Bank := { label := .plain "Mood", options := [calm, .plain "wild"] }
    let c : Bank := { label := .plain "Mood", category := "feel", options := [.plain "wild", calm'] }
    b.absent = {} ∧ c.absent = {} ∧ ¬ b.Miscounted c ∧ b.sameContents c ∧ c.sameContents b := by
  intro calm calm' b c
  obtain ⟨hiff, -, hdistinct, -⟩ := compared_as_sets_iff (b := b) (c := c) rfl rfl
  obtain ⟨hset, hcomm⟩ := hdistinct (by decide +kernel) (by decide +kernel)
  have hsame : b.sameContents c := hset.2 (by decide +kernel)
  exact ⟨rfl, rfl, hiff.1 hset, hsame, hcomm.1 hsame⟩

/-- A bank that lists an option twice is taken for one with two options, but not the other way
round, and it is not taken for one that lists the option once. -/
theorem not_always_compared_as_sets :
    let bank (options : List Localized) : Bank :=
      { label := .plain "Color", category := "paint", options }
    let twice := bank [.plain "red", .plain "red"]
    let both := bank [.plain "red", .plain "blue"]
    let once := bank [.plain "red"]
    Bank.ofJson? (.obj [("label", .str "Color"), ("category", .str "paint"),
        ("options", .arr [.str "red", .str "red"])]) = some twice ∧
      twice.sameContents both ∧ ¬ twice.SameSet both ∧ ¬ both.sameContents twice ∧
      twice.SameSet once ∧ ¬ twice.sameContents once := by
  refine ⟨rfl, ?_, ?_, ?_, ?_, ?_⟩ <;> decide +kernel

end Stencil.Bank
