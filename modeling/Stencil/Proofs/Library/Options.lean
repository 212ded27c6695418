import Mathlib.Data.List.Induction
import Stencil.Proofs.Library.Commands
import Stencil.Proofs.Reconcile.Banks

/-!
# Options of banks

Commands on banks keep options from being blank. They keep them distinct too, with one exception: an
option that is updated is not compared with the others.

* `Library.NonblankOptions` — no bank lists a blank option; `Library.DistinctOptions` says the same
  of options that come twice;
* `Library.Collides` — a command puts an option beside one like it;
* `Library.BankStep.forall_options` — what a command keeps of the options of all banks;
* `Library.distinctOptions_performBank_iff` — the step, and `Library.options_distinct_iff` the whole
  run;
* `Library.options_not_always_distinct` — the exception.
-/

namespace Stencil

variable {b : Bank} {old new option : Localized}

/-! ## Options of one bank -/

namespace Library

/-- One option is replaced, and it is like `old`. -/
theorem exists_replaceFirst {options : List Localized} (new : Localized)
    (h : ∃ o ∈ options, o ≈ old) :
    ∃ pre o post, options = pre ++ o :: post ∧ o ≈ old ∧
      replaceFirst old new options = pre ++ new :: post := by
  induction options with
  | nil => simp at h
  | cons o os ih =>
    by_cases ho : o ≈ old
    · exact ⟨[], o, os, rfl, ho, by simp [replaceFirst, ho]⟩
    · obtain ⟨o', ho', hold⟩ := h
      have hmem : o' ∈ os := (List.mem_cons.1 ho').resolve_left fun heq => ho (heq ▸ hold)
      obtain ⟨pre, p, post, hos, hp, hreplace⟩ := ih ⟨o', hmem, hold⟩
      exact ⟨o :: pre, p, post, by simp [hos], hp, by simp [replaceFirst, ho, hreplace]⟩

end Library

namespace Bank

theorem unlike_symm {o p : Localized} (h : ¬ o ≈ p) : ¬ p ≈ o := fun h' => h (Setoid.symm h')

/-- An option is pushed only if it is unlike all others. -/
theorem DistinctOptions.pushOption (h : b.DistinctOptions) (option : Localized) :
    (b.pushOption option).DistinctOptions := by
  unfold Bank.pushOption
  split
  · exact h
  · rename_i hnew
    refine List.pairwise_append.2 ⟨h, List.pairwise_singleton _ _, fun o ho p hp halike => ?_⟩
    rw [List.mem_singleton.1 hp] at halike
    exact hnew (hasOption_iff.2 ⟨o, ho, halike⟩)

/-- The options stay distinct if the new one is like none of them, or like the one it replaces. -/
theorem distinctOptions_replaceFirst_iff (h : b.DistinctOptions) (hold : b.hasOption old) :
    (Library.replaceFirst old new b.options).Pairwise (fun o p => ¬ o ≈ p) ↔
      (b.hasOption new → new ≈ old) := by
  obtain ⟨pre, o, post, hsplit, ho, hreplace⟩ :=
    Library.exists_replaceFirst new (hasOption_iff.1 hold)
  -- the options beside the replaced one stay distinct, so only the new one matters
  have hothers := h
  rw [DistinctOptions, hsplit, List.pairwise_middle unlike_symm, List.pairwise_cons] at hothers
  rw [hreplace, List.pairwise_middle unlike_symm, List.pairwise_cons, and_iff_left hothers.2,
    hasOption_iff]
  constructor
  · rintro hnew ⟨p, hp, halike⟩
    rw [hsplit, List.mem_append, List.mem_cons, or_left_comm, ← List.mem_append] at hp
    rcases hp with rfl | hp
    · exact Setoid.trans (Setoid.symm halike) ho
    · exact absurd (Setoid.symm halike) (hnew p hp)
  · intro hnew p hp halike
    have hmem : p ∈ b.options := by
      rw [hsplit, List.mem_append, List.mem_cons, or_left_comm, ← List.mem_append]
      exact .inr hp
    have hlike : new ≈ old := hnew ⟨p, hmem, Setoid.symm halike⟩
    exact hothers.1 p hp (Setoid.trans ho (Setoid.trans (Setoid.symm hlike) halike))

end Bank

/-! ## Options of all banks -/

namespace Library

variable {l m : Library} {c : BankCommand}

/-- No bank of the library lists a blank option. -/
def NonblankOptions (l : Library) : Prop := ∀ b ∈ l.banks.values, ∀ o ∈ b.options, ¬ o.isBlank

instance (l : Library) : Decidable l.NonblankOptions :=
  inferInstanceAs (Decidable (∀ b ∈ l.banks.values, ∀ o ∈ b.options, ¬ o.isBlank))

/-- What a command keeps of the options of all banks: what holds of no options, and is kept when an
option is added, when options are taken out and when one is updated. -/
theorem BankStep.forall_options {P : List Localized → Prop} (hstep : BankStep l c m)
    (h : ∀ b ∈ l.banks.values, P b.options) (hnil : P [])
    (hpush : ∀ b option, ¬ Localized.isBlank option → P b.options →
      P (Bank.pushOption b option).options)
    (hfilter : ∀ options p, P options → P (options.filter p))
    (hupdate : ∀ key old new b, c = .updateOption key old new → l.banks.get? key = some b →
      ¬ new.isBlank → b.hasOption old → P b.options → P (replaceFirst old new b.options)) :
    ∀ b ∈ m.banks.values, P b.options := by
  rw [OrderedMap.values, List.forall_mem_map] at h ⊢
  have hbank {key : String} {b : Bank} (hb : l.banks.get? key = some b) : P b.options :=
    h _ (OrderedMap.get?_eq_some_iff.1 hb)
  cases hstep with
  | unchanged => exact h
  | added => exact OrderedMap.forall_entries_insert h hnil
  | removed => exact fun e he => h e (List.mem_of_mem_filter he)
  | categorized hb =>
    have hoptions := hbank hb
    exact OrderedMap.forall_entries_insert h hoptions
  | renamed =>
    -- every bank that is there afterwards was there under some key
    refine OrderedMap.forall_entries_ofList fun e he => ?_
    obtain ⟨e', he', rfl⟩ := List.mem_map.1 he
    exact h e' he'
  | optionAdded hb hblank =>
    exact OrderedMap.forall_entries_insert h (hpush _ _ hblank (hbank hb))
  | optionUpdated hb hblank hold =>
    exact OrderedMap.forall_entries_insert h (hupdate _ _ _ _ rfl hb hblank hold (hbank hb))
  | optionRemoved hb => exact OrderedMap.forall_entries_insert h (hfilter _ _ (hbank hb))
  | customAdded hb hblank =>
    exact OrderedMap.forall_entries_insert h (hpush _ _ hblank (hbank hb))

/-- A command leaves no blank option. -/
theorem NonblankOptions.performBank (h : l.NonblankOptions) (c : BankCommand) :
    (l.performBank c).NonblankOptions := by
  refine (l.bankStep_performBank c).forall_options (P := fun os => ∀ o ∈ os, ¬ o.isBlank) h
    (by simp) ?_ (fun os p hos o ho => hos o (List.mem_of_mem_filter ho)) ?_
  · intro b option hblank hb
    unfold Bank.pushOption
    split
    · exact hb
    · exact List.forall_mem_append.2 ⟨hb, by simpa using hblank⟩
  · intro key old new b _ _ hblank hold hb
    obtain ⟨pre, o, post, hsplit, -, hreplace⟩ :=
      exists_replaceFirst new (Bank.hasOption_iff.1 hold)
    rw [hsplit, List.forall_mem_append, List.forall_mem_cons] at hb
    rw [hreplace, List.forall_mem_append, List.forall_mem_cons]
    exact ⟨hb.1, hblank, hb.2.2⟩

/-- The command puts an option in the place of another one, and beside one that is like it. -/
def Collides (l : Library) : BankCommand → Prop
  | .updateOption key old new =>
    ∃ b, l.banks.get? key = some b ∧ ¬ new.isBlank ∧ b.hasOption old ∧ b.hasOption new ∧
      ¬ new ≈ old
  | _ => False

/-- A command keeps options distinct if and only if it does not collide. -/
theorem distinctOptions_performBank_iff (h : l.DistinctOptions) (c : BankCommand) :
    (l.performBank c).DistinctOptions ↔ ¬ l.Collides c := by
  constructor
  · intro hdistinct hcollides
    cases c with
    | updateOption key old new =>
      obtain ⟨b, hb, hblank, hold, hnew, hunlike⟩ := hcollides
      have hget : (l.performBank (.updateOption key old new)).banks.get? key =
          some { b with options := replaceFirst old new b.options } := by
        simp [performBank_updateOption hb hblank hold, putBank]
      have hreplaced := hdistinct.of_get? hget
      exact hunlike ((Bank.distinctOptions_replaceFirst_iff (h.of_get? hb) hold).1 hreplaced hnew)
    | _ => exact hcollides
  · intro hcollides
    refine (l.bankStep_performBank c).forall_options (P := fun os => os.Pairwise fun o p => ¬ o ≈ p)
      h .nil (fun b option _ hb => Bank.DistinctOptions.pushOption hb option)
      (fun os p hos => hos.filter p) ?_
    rintro key old new b rfl hb hblank hold hdistinct
    refine (Bank.distinctOptions_replaceFirst_iff hdistinct hold).2 fun hnew => ?_
    by_contra hunlike
    exact hcollides ⟨b, hb, hblank, hold, hnew, hunlike⟩

/-! ## Runs -/

theorem NonblankOptions.runBank (h : l.NonblankOptions) (commands : List BankCommand) :
    (l.runBank commands).NonblankOptions := by
  induction commands using List.reverseRecOn with
  | nil => exact h
  | append_singleton commands c ih =>
    rw [runBank_concat]
    exact ih.performBank c

/-- **Commands on banks leave no blank option, and keep options distinct if and only if none of them
collides.** The options of every bank are distinct at all times of a run exactly if no option is
updated to one that its bank has beside it. -/
theorem options_distinct_iff (l : Library) (commands : List BankCommand)
    (hdistinct : l.DistinctOptions) (hnonblank : l.NonblankOptions) :
    (l.runBank commands).NonblankOptions ∧
      ((∀ before, before <+: commands → (l.runBank before).DistinctOptions) ↔
        ∀ before c, before ++ [c] <+: commands → ¬ (l.runBank before).Collides c) := by
  refine ⟨hnonblank.runBank commands, ?_, ?_⟩
  · intro h before c hpre
    have hbefore := h before ((List.prefix_append _ _).trans hpre)
    have hafter := h _ hpre
    rw [runBank_concat] at hafter
    exact (distinctOptions_performBank_iff hbefore c).1 hafter
  · intro h before hpre
    induction before using List.reverseRecOn with
    | nil => exact hdistinct
    | append_singleton before c ih =>
      have hbefore := ih ((List.prefix_append _ _).trans hpre)
      rw [runBank_concat]
      exact (distinctOptions_performBank_iff hbefore c).2 (h before c hpre)

/-- Options are added, updated and taken out, and none of it collides. -/
theorem options_distinct_of_new_color :
    let bank : Bank := { label := .plain "Color", options := [.plain "red", .plain "blue"] }
    let l : Library := { banks := .ofList [("color", bank)] }
    let commands : List BankCommand :=
      [.addOption "color" (.plain "blue"), .updateOption "color" (.plain "red") (.plain "pink")]
    l.DistinctOptions ∧ l.NonblankOptions ∧ (l.runBank commands).NonblankOptions ∧
      ∀ before, before <+: commands → (l.runBank before).DistinctOptions := by
  intro bank l commands
  have hdistinct : l.DistinctOptions := by decide +kernel
  have hnonblank : l.NonblankOptions := by decide +kernel
  obtain ⟨h, hiff⟩ := options_distinct_iff l commands hdistinct hnonblank
  refine ⟨hdistinct, hnonblank, h, hiff.2 fun before c hpre hcollides => ?_⟩
  rcases before with _ | ⟨c₁, _ | ⟨c₂, rest⟩⟩
  · obtain rfl : c = .addOption "color" (.plain "blue") := by simpa [commands] using hpre
    exact hcollides
  · obtain ⟨rfl, rfl⟩ : c₁ = .addOption "color" (.plain "blue") ∧
        c = .updateOption "color" (.plain "red") (.plain "pink") := by simpa [commands] using hpre
    obtain ⟨b, hb, -, -, hnew, -⟩ := hcollides
    obtain rfl : bank = b := Option.some.inj hb
    exact absurd hnew (by decide +kernel)
  · simp [commands] at hpre

/-- An option that is updated to another one comes twice. -/
theorem options_not_always_distinct :
    ¬ ∀ (l : Library) (commands : List BankCommand), l.DistinctOptions → l.NonblankOptions →
      (l.runBank commands).DistinctOptions ∧ (l.runBank commands).NonblankOptions := by
  intro h
  let bank : Bank := { label := .plain "Color", options := [.plain "red", .plain "blue"] }
  let l : Library := { banks := .ofList [("color", bank)] }
  have hrun := h l [.updateOption "color" (.plain "red") (.plain "blue")] (by decide +kernel)
    (by decide +kernel)
  exact absurd hrun.1 (by decide +kernel)

end Library

end Stencil
