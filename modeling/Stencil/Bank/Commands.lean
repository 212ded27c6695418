import Stencil.Attempt
import Stencil.Bank.Basic
import Stencil.Library.Basic
import Stencil.Template.KeyRenaming
import Stencil.Text.Quoted

/-!
# Commands on banks

Banks are added to a library, taken out of it and renamed, and their options are changed. A command
that cannot be carried out says why, and the library stays as it is.
-/

namespace Stencil

/-- Why a command on banks cannot be carried out. -/
inductive BankError where
  /-- There is no bank under the key. -/
  | notFound (key : String)
  /-- There is a bank under the key. -/
  | keyExists (key : String)
  /-- No placeholder can name the key. -/
  | invalidKey (raw : String)
  /-- The option is blank. -/
  | blankOption
  /-- The bank has no such option. -/
  | optionNotFound (key : String)
deriving DecidableEq

/-- What the user is told. -/
def BankError.message : BankError → String
  | notFound key => "bank not found: " ++ key
  | keyExists key => "bank key already exists: " ++ key
  | invalidKey raw => "invalid bank key: " ++ Text.quoted raw
  | blankOption => "option must not be blank"
  | optionNotFound key => "option not found in bank " ++ key

namespace Library

/-- The bank under a key. -/
def bank (l : Library) (key : String) : Except BankError Bank :=
  match l.banks.get? key with
  | some b => .ok b
  | none => .error (.notFound key)

/-- A key that a placeholder can name, made of what the user typed. -/
def bankKey (raw : String) : Except BankError String :=
  match Bank.usableKey? raw with
  | some key => .ok key
  | none => .error (.invalidKey raw)

theorem bank_eq_ok_iff {l : Library} {key : String} {b : Bank} :
    l.bank key = .ok b ↔ l.banks.get? key = some b := by
  rw [bank]
  cases l.banks.get? key <;> simp

theorem bankKey_eq_ok_iff {raw key : String} :
    bankKey raw = .ok key ↔ Bank.usableKey? raw = some key := by
  rw [bankKey]
  cases Bank.usableKey? raw <;> simp

/-- Put a bank under a key. -/
def putBank (l : Library) (key : String) (b : Bank) : Library :=
  { l with banks := l.banks.insert key b }

/-- The defaults after a bank got another key: its default goes to the end, or takes the place of
the default that was there under the new key. -/
def moveDefault (defaults : Defaults) (key newKey : String) : Defaults :=
  match defaults.get? key with
  | some value => (defaults.erase key).insert newKey value
  | none => defaults

/-- Put an option in the place of the first one like `old`. -/
def replaceFirst (old new : Localized) : List Localized → List Localized
  | [] => []
  | o :: os => if o ≈ old then new :: os else o :: replaceFirst old new os

/-- Add a value that a user typed to a bank, if it is not blank and the bank is there. The answer
says whether it is new. -/
def addCustomOption (l : Library) (key : String) (value : Localized) : Bool × Library :=
  if value.isBlank then (false, l)
  else
    match l.banks.get? key with
    | some b => (!b.hasOption value, { l with banks := l.banks.insert key (b.pushOption value) })
    | none => (false, l)

end Library

namespace Attempt

open Library

/-! ## Banks -/

/-- Add a bank without options, and an empty default. The answer is the key that is used. -/
def addBank (raw : String) (label : Localized) (category : String) :
    Attempt Library BankError String := do
  let key ← bankKey raw
  let l ← get
  if l.banks.contains key then throw (.keyExists key)
  else
    set { l with
      banks := l.banks.insert key { label, category }
      defaults := l.defaults.insert key .empty }
    return key

/-- Take a bank and its default out. Placeholders that name it stay. -/
def removeBank (key : String) : Attempt Library BankError Bank := do
  let l ← get
  let b ← l.bank key
  set { l with banks := l.banks.erase key, defaults := l.defaults.erase key }
  return b

/-- Change the bank under a key. -/
def changeBank {α : Type} (key : String) (change : Bank → Except BankError (α × Bank)) :
    Attempt Library BankError α := do
  let l ← get
  let b ← l.bank key
  let (answer, b') ← change b
  set (l.putBank key b')
  return answer

theorem run_changeBank_eq_ok_iff {α : Type} {l m : Library} {key : String} {answer : α}
    {change : Bank → Except BankError (α × Bank)} :
    (changeBank key change).run l = .ok answer m ↔
      ∃ b b', l.banks.get? key = some b ∧ change b = .ok (answer, b') ∧ m = l.putBank key b' := by
  simp only [changeBank, run_get_bind, run_lift_bind_eq_ok_iff, bank_eq_ok_iff]
  constructor
  · rintro ⟨b, hb, ⟨_, b'⟩, hchange, ⟨⟩⟩
    exact ⟨b, b', hb, hchange, rfl⟩
  · rintro ⟨b, b', hb, hchange, rfl⟩
    exact ⟨b, hb, _, hchange, rfl⟩

/-- Show a bank in another category. -/
def setBankCategory (key category : String) : Attempt Library BankError Unit :=
  changeBank key fun b => .ok ((), { b with category })

/-- Give a bank another key, at its place, and rewrite all templates. The answer is the key that is
used. -/
def renameBank (key raw : String) : Attempt Library BankError String := do
  let newKey ← bankKey raw
  let l ← get
  let _ ← l.bank key
  if newKey = key then return newKey
  else if l.banks.contains newKey then throw (.keyExists newKey)
  else
    set { l with
      templates := l.templates.map (Template.renameKeys [(key, newKey)])
      banks := l.banks.mapKeys fun k => if k = key then newKey else k
      defaults := moveDefault l.defaults key newKey }
    return newKey

/-! ## Options -/

/-- Add an option to a bank; the answer says whether it is new. -/
def addOption (key : String) (option : Localized) : Attempt Library BankError Bool :=
  if option.isBlank then throw .blankOption
  else changeBank key fun b => .ok (!b.hasOption option, b.pushOption option)

/-- Put an option in the place of another. -/
def updateOption (key : String) (old new : Localized) : Attempt Library BankError Unit :=
  if new.isBlank then throw .blankOption
  else
    changeBank key fun b =>
      if b.hasOption old then .ok ((), { b with options := replaceFirst old new b.options })
      else .error (.optionNotFound key)

/-- Take all options like a given one out of a bank; the answer says whether there were any. -/
def removeOption (key : String) (option : Localized) : Attempt Library BankError Bool :=
  changeBank key fun b =>
    .ok (b.hasOption option,
      { b with options := b.options.filter fun o => !decide (o ≈ option) })

end Attempt

/-! ## What comes of them -/

namespace Library

/-- The key of a bank that has been added, and the library after that. -/
def addBank (l : Library) (raw : String) (label : Localized) (category : String) :
    Except BankError (String × Library) := (Attempt.addBank raw label category).answer l

/-- The bank that has been taken out, and the library after that. -/
def removeBank (l : Library) (key : String) : Except BankError (Bank × Library) :=
  (Attempt.removeBank key).answer l

/-- The library in which a bank is in another category. -/
def setBankCategory (l : Library) (key category : String) : Except BankError Library :=
  (Attempt.setBankCategory key category).after l

/-- The new key of a bank, and the library after it has been renamed. -/
def renameBank (l : Library) (key raw : String) : Except BankError (String × Library) :=
  (Attempt.renameBank key raw).answer l

/-- Whether an option is new, and the library that has it. -/
def addOption (l : Library) (key : String) (option : Localized) :
    Except BankError (Bool × Library) := (Attempt.addOption key option).answer l

/-- The library with an option in the place of another. -/
def updateOption (l : Library) (key : String) (old new : Localized) : Except BankError Library :=
  (Attempt.updateOption key old new).after l

/-- Whether there was an option, and the library without it. -/
def removeOption (l : Library) (key : String) (option : Localized) :
    Except BankError (Bool × Library) := (Attempt.removeOption key option).answer l

end Library

end Stencil
