import Stencil.Proofs.Bank.Renaming
import Stencil.Template.Commands

/-!
# Runs of commands on a library

What a user does to the library itself: the commands on templates and those on banks, given one
after another.

* `TemplateCommand`, `BankCommand` — the commands; `TemplateCommand.atomic_attempt` and
  `BankCommand.atomic_attempt` say that one that fails changes nothing;
* `Library.performTemplate`, `Library.performBank` — what a command makes of a library;
* `Library.ids_performTemplate` — all that a command on templates can do to their ids;
* `Library.BankStep` — all that a command on banks can do, which `bankStep_performBank` says of each
  of them.
-/

namespace Stencil

open Placeholder

/-- A command on the templates of a library. -/
inductive TemplateCommand where
  /-- Add a template at the end. -/
  | add (t : Template)
  /-- Take a template out. -/
  | remove (id : String)
  /-- Give a template another name. -/
  | rename (id : String) (name : Localized)
  /-- Give a template other tags. -/
  | setTags (id : String) (tags : List String)
  /-- Give a template another content. -/
  | setContent (id : String) (content : Localized)
  /-- Give base keys other names in a template. -/
  | renameKeys (id : String) (renames : Renames)

/-- A command on the banks of a library. -/
inductive BankCommand where
  /-- Add a bank without options. -/
  | addBank (raw : String) (label : Localized) (category : String)
  /-- Take a bank out. -/
  | removeBank (key : String)
  /-- Show a bank in another category. -/
  | setBankCategory (key category : String)
  /-- Give a bank another key. -/
  | renameBank (key raw : String)
  /-- Add an option. -/
  | addOption (key : String) (option : Localized)
  /-- Put an option in the place of another. -/
  | updateOption (key : String) (old new : Localized)
  /-- Take an option out. -/
  | removeOption (key : String) (option : Localized)
  /-- Add a value that was typed. -/
  | addCustomOption (key : String) (value : Localized)

open Attempt

/-- What is done for a command on templates. -/
def TemplateCommand.attempt : TemplateCommand → Attempt Library TemplateError Unit
  | .add t => addTemplate t
  | .remove id => (removeTemplate id).silent
  | .rename id name => renameTemplate id name
  | .setTags id tags => Attempt.setTags id tags
  | .setContent id content => modify fun l => (l.setContent? id content).getD l
  | .renameKeys id renames => modify fun l => l.modifyTemplate id (Template.renameKeys renames)

/-- What is done for a command on banks. -/
def BankCommand.attempt : BankCommand → Attempt Library BankError Unit
  | .addBank raw label category => (Attempt.addBank raw label category).silent
  | .removeBank key => (Attempt.removeBank key).silent
  | .setBankCategory key category => Attempt.setBankCategory key category
  | .renameBank key raw => (Attempt.renameBank key raw).silent
  | .addOption key option => (Attempt.addOption key option).silent
  | .updateOption key old new => Attempt.updateOption key old new
  | .removeOption key option => (Attempt.removeOption key option).silent
  | .addCustomOption key value => modify fun l => (l.addCustomOption key value).2

/-! ## Failing commands -/

theorem atomic_changeTemplate (id : String) (f : Template → Template) :
    (changeTemplate id f).Atomic := .get_bind fun _ => .ite atomic_set atomic_throw

/-- **A command on templates that fails changes nothing.** -/
theorem TemplateCommand.atomic_attempt (c : TemplateCommand) : c.attempt.Atomic := by
  cases c with
  | add t => exact .get_bind fun _ => .ite atomic_throw (.ite atomic_throw atomic_set)
  | remove id =>
    refine .silent (.get_bind fun l => ?_)
    cases l.template? id with
    | none => exact atomic_throw
    | some t => exact atomic_set_pure
  | rename id name => exact atomic_changeTemplate id _
  | setTags id tags => exact atomic_changeTemplate id _
  | setContent id content => exact atomic_modify _
  | renameKeys id renames => exact atomic_modify _

theorem atomic_changeBank {α : Type} (key : String)
    (change : Bank → Except BankError (α × Bank)) : (changeBank key change).Atomic :=
  .get_bind fun _ => .lift_bind fun _ => .lift_bind fun _ => atomic_set_pure

/-- **A command on banks that fails changes nothing.** -/
theorem BankCommand.atomic_attempt (c : BankCommand) : c.attempt.Atomic := by
  cases c with
  | addBank raw label category =>
    exact .silent (.lift_bind fun _ => .get_bind fun _ => .ite atomic_throw atomic_set_pure)
  | removeBank key => exact .silent (.get_bind fun _ => .lift_bind fun _ => atomic_set_pure)
  | setBankCategory key category => exact atomic_changeBank key _
  | renameBank key raw =>
    exact .silent (.lift_bind fun _ => .get_bind fun _ => .lift_bind fun _ =>
      .ite nofun (.ite atomic_throw atomic_set_pure))
  | addOption key option => exact .silent (.ite atomic_throw (atomic_changeBank key _))
  | updateOption key old new => exact .ite atomic_throw (atomic_changeBank key _)
  | removeOption key option => exact .silent (atomic_changeBank key _)
  | addCustomOption key value => exact atomic_modify _

namespace Library

variable {l m : Library} {key : String}

/-- What a command on templates makes of a library. -/
def performTemplate (l : Library) (c : TemplateCommand) : Library := c.attempt.left l

/-- What a command on banks makes of a library. -/
def performBank (l : Library) (c : BankCommand) : Library := c.attempt.left l

/-- Commands on banks that are given one after another. -/
def runBank (l : Library) (commands : List BankCommand) : Library := commands.foldl performBank l

@[simp] theorem runBank_concat (l : Library) (commands : List BankCommand) (c : BankCommand) :
    l.runBank (commands ++ [c]) = (l.runBank commands).performBank c := by
  simp [runBank]

/-! ## Ids -/

/-- The ids of the templates, in order. -/
abbrev ids (l : Library) : List String := l.templates.map (·.id)

theorem ids_modifyTemplate {id : String} {f : Template → Template}
    (hf : ∀ t ∈ l.templates, t.id = id → (f t).id = id) : (l.modifyTemplate id f).ids = l.ids := by
  change (modifyFirst id f l.templates).map (·.id) = l.templates.map (·.id)
  generalize l.templates = ts at hf ⊢
  induction ts with
  | nil => rfl
  | cons t ts ih =>
    rw [List.forall_mem_cons] at hf
    by_cases hid : t.id = id
    · simp [modifyFirst, hid, hf.1 hid]
    · simp [modifyFirst, hid, ih hf.2]

/-- A command on templates adds one with a new id, takes one out, or keeps all ids. -/
theorem ids_performTemplate (l : Library) (c : TemplateCommand) :
    (∃ id, id ∉ l.ids ∧ (l.performTemplate c).ids = l.ids ++ [id]) ∨
      (l.performTemplate c).ids.Sublist l.ids := by
  have hkept {m : Library} (h : m.ids = l.ids) : m.ids.Sublist l.ids := h ▸ List.Sublist.refl _
  have hmodify (id : String) {f : Template → Template} (hf : ∀ t, (f t).id = t.id) :
      (l.modifyTemplate id f).ids.Sublist l.ids :=
    hkept (ids_modifyTemplate fun t _ hid => (hf t).trans hid)
  have hchange {m : Library} {id : String} {f : Template → Template} {answer : Unit}
      (h : (changeTemplate id f).run l = .ok answer m) (hf : ∀ t, (f t).id = t.id) :
      m.ids.Sublist l.ids := by
    obtain ⟨-, rfl⟩ := run_changeTemplate_eq_ok_iff.1 h
    exact hmodify id hf
  refine c.atomic_attempt.left_cases
    (motive := fun m => (∃ id, id ∉ l.ids ∧ m.ids = l.ids ++ [id]) ∨ m.ids.Sublist l.ids)
    (.inr (hkept rfl)) fun _ m h => ?_
  cases c with
  | add t =>
    rw [TemplateCommand.attempt, Attempt.addTemplate, run_get_bind] at h
    obtain ⟨-, hnew, ⟨⟩⟩ :=
      (run_throw_ite_eq_ok_iff.trans (and_congr_right' run_throw_ite_eq_ok_iff)).1 h
    exact .inl ⟨t.id, by simpa [hasTemplate] using hnew, by simp [ids]⟩
  | remove id =>
    obtain ⟨t, h⟩ := run_silent_eq_ok_iff.1 h
    rw [Attempt.removeTemplate, run_get_bind] at h
    split at h
    · cases h
      exact .inr (List.eraseP_sublist.map _)
    · cases h
  | rename id name => exact .inr (hchange h fun _ => rfl)
  | setTags id tags => exact .inr (hchange h fun _ => rfl)
  | setContent id content =>
    obtain rfl : (l.setContent? id content).getD l = m := by
      cases h
      rfl
    right
    unfold setContent?
    split
    · exact hmodify id fun _ => rfl
    · exact hkept rfl
  | renameKeys id renames =>
    cases h
    exact .inr (hmodify id (Template.id_renameKeys renames))

/-! ## Banks -/

/-- What a command on banks may make of a library: nothing changes, or one bank is new, gone, under
another key, in another category or has other options. -/
inductive BankStep (l : Library) : BankCommand → Library → Prop
  /-- Nothing changes. -/
  | unchanged {c : BankCommand} : BankStep l c l
  /-- A bank is new. -/
  | added {raw key category : String} {label : Localized} (hnew : key ∉ l.banks.keys) :
    BankStep l (.addBank raw label category)
      { l.putBank key { label, category } with defaults := l.defaults.insert key .empty }
  /-- A bank is gone. -/
  | removed {key : String} : BankStep l (.removeBank key)
      { l with banks := l.banks.erase key, defaults := l.defaults.erase key }
  /-- A bank is in another category. -/
  | categorized {key category : String} {b : Bank} (hb : l.banks.get? key = some b) :
    BankStep l (.setBankCategory key category) (l.putBank key { b with category })
  /-- A bank is under another key. -/
  | renamed {key raw newKey : String} : BankStep l (.renameBank key raw) (l.moveBank key newKey)
  /-- An option has been added, unless there was one like it. -/
  | optionAdded {key : String} {option : Localized} {b : Bank} (hb : l.banks.get? key = some b)
      (hblank : ¬ option.isBlank) :
    BankStep l (.addOption key option) (l.putBank key (b.pushOption option))
  /-- An option is in the place of another. -/
  | optionUpdated {key : String} {old new : Localized} {b : Bank}
      (hb : l.banks.get? key = some b) (hblank : ¬ new.isBlank) (hold : b.hasOption old) :
    BankStep l (.updateOption key old new)
      (l.putBank key { b with options := replaceFirst old new b.options })
  /-- An option is gone. -/
  | optionRemoved {key : String} {option : Localized} {b : Bank} (hb : l.banks.get? key = some b) :
    BankStep l (.removeOption key option)
      (l.putBank key { b with options := b.options.filter fun o => !decide (o ≈ option) })
  /-- A value that was typed has been added, unless there was one like it. -/
  | customAdded {key : String} {value : Localized} {b : Bank} (hb : l.banks.get? key = some b)
      (hblank : ¬ value.isBlank) :
    BankStep l (.addCustomOption key value) (l.putBank key (b.pushOption value))

theorem addBank_eq_ok_iff {raw category : String} {label : Localized} :
    l.addBank raw label category = .ok (key, m) ↔
      Bank.usableKey? raw = some key ∧ key ∉ l.banks.keys ∧
        m = { l with
          banks := l.banks.insert key { label, category }
          defaults := l.defaults.insert key .empty } := by
  rw [addBank, answer_eq_ok_iff, Attempt.addBank]
  simp only [run_lift_bind_eq_ok_iff, run_get_bind, run_throw_ite_eq_ok_iff, bankKey_eq_ok_iff,
    OrderedMap.contains_iff]
  constructor
  · rintro ⟨used, husable, hfree, ⟨⟩⟩
    exact ⟨husable, hfree, rfl⟩
  · rintro ⟨husable, hfree, rfl⟩
    exact ⟨key, husable, hfree, rfl⟩

/-- An option that is there gets replaced, unless the new one is blank. -/
theorem performBank_updateOption {old new : Localized} {b : Bank}
    (hb : l.banks.get? key = some b) (hblank : ¬ new.isBlank) (hold : b.hasOption old) :
    l.performBank (.updateOption key old new) =
      l.putBank key { b with options := replaceFirst old new b.options } := by
  have hrun : (BankCommand.updateOption key old new).attempt.run l =
      .ok () (l.putBank key { b with options := replaceFirst old new b.options }) := by
    rw [BankCommand.attempt, Attempt.updateOption, if_neg hblank, run_changeBank_eq_ok_iff]
    exact ⟨b, _, hb, if_pos hold, rfl⟩
  exact left_of_run hrun

/-- **A command on banks does what it says, or nothing at all.** -/
theorem bankStep_performBank (l : Library) (c : BankCommand) : BankStep l c (l.performBank c) := by
  refine c.atomic_attempt.left_cases .unchanged fun _ m h => ?_
  cases c with
  | addBank raw label category =>
    obtain ⟨key, h⟩ := run_silent_eq_ok_iff.1 h
    obtain ⟨-, hnew, rfl⟩ := addBank_eq_ok_iff.1 (answer_eq_ok_iff.2 h)
    exact .added hnew
  | removeBank key =>
    obtain ⟨b, h⟩ := run_silent_eq_ok_iff.1 h
    obtain ⟨_, -, h⟩ := run_lift_bind_eq_ok_iff.1 (run_get_bind.symm.trans h)
    cases h
    exact .removed
  | setBankCategory key category =>
    obtain ⟨b, b', hb, hchange, rfl⟩ := run_changeBank_eq_ok_iff.1 h
    cases hchange
    exact .categorized hb
  | renameBank key raw =>
    obtain ⟨newKey, h⟩ := run_silent_eq_ok_iff.1 h
    obtain ⟨-, -, ⟨-, rfl⟩ | ⟨-, -, rfl⟩⟩ := renameBank_eq_ok_iff.1 (answer_eq_ok_iff.2 h)
    · exact .unchanged
    · exact .renamed
  | addOption key option =>
    obtain ⟨_, h⟩ := run_silent_eq_ok_iff.1 h
    obtain ⟨hblank, h⟩ := run_throw_ite_eq_ok_iff.1 h
    obtain ⟨b, b', hb, hchange, rfl⟩ := run_changeBank_eq_ok_iff.1 h
    cases hchange
    exact .optionAdded hb hblank
  | updateOption key old new =>
    obtain ⟨hblank, h⟩ := run_throw_ite_eq_ok_iff.1 h
    obtain ⟨b, b', hb, hchange, rfl⟩ := run_changeBank_eq_ok_iff.1 h
    split at hchange
    · rename_i hold
      cases hchange
      exact .optionUpdated hb hblank hold
    · cases hchange
  | removeOption key option =>
    obtain ⟨_, h⟩ := run_silent_eq_ok_iff.1 h
    obtain ⟨b, b', hb, hchange, rfl⟩ := run_changeBank_eq_ok_iff.1 h
    cases hchange
    exact .optionRemoved hb
  | addCustomOption key value =>
    obtain rfl : (l.addCustomOption key value).2 = m := by
      cases h
      rfl
    unfold addCustomOption
    split
    · exact .unchanged
    · rename_i hblank
      split
      · rename_i b hb
        exact .customAdded hb hblank
      · exact .unchanged

/-- A command on banks keeps all templates under their ids. -/
theorem BankStep.ids_eq {c : BankCommand} (h : BankStep l c m) : m.ids = l.ids := by
  cases h with
  | renamed => simp [moveBank, ids, Function.comp_def]
  | _ => rfl

end Library

end Stencil
