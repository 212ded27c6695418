import Stencil.Config
import Stencil.Library.Basic
import Stencil.Template.KeyRenaming
import Stencil.Text.Numeral

/-!
# Keys of system banks

A system bank may come under a key at which the user has a bank of another kind. It is then
imported under a key of the rename family of its own: the one it was imported under before, or a
free one. A name that is taken gets a number: `base`, `base2`, `base3` and so on. The names that
begin with `base` and go on with digits only are its *family*.

* `numbered`, `firstFree?` — the names that are tried, in order, and the first that is not taken;
* `inFamily` — membership in the family;
* `planRenames` — the keys of a release that get another name;
* `Library.renameKeys` — a library with renamed bank keys.
-/

namespace Stencil

open Placeholder

/-- A library with renamed bank keys: in banks, defaults and templates. -/
def Library.renameKeys (renames : Renames) (l : Library) : Library :=
  if renames.isEmpty then l
  else
    let renamed (key : String) : String := (renames.get? key).getD key
    { l with
      templates := l.templates.map (Template.renameKeys renames)
      banks := l.banks.mapKeys renamed
      defaults := l.defaults.mapKeys renamed }

namespace Reconcile

/-! ## Families of names -/

/-- The name that is tried after `n` others. -/
def numbered (base : String) (n : Nat) : String :=
  if n = 0 then base else base ++ Text.decimal (n + 1)

/-- The first name that is not taken, when at most `bound` names are. -/
def firstFree? (base : String) (taken : String → Bool) (bound : Nat) : Option String :=
  ((List.range (bound + 1)).find? fun n => !taken (numbered base n)).map (numbered base)

/-- The name is `base` or goes on with digits only. -/
def inFamily (name base : String) : Bool :=
  base.toList.isPrefixOf name.toList && (name.toList.drop base.toList.length).all Char.isDigit

/-! ## Keys that get another name -/

/-- The suffix for renamed keys that is used when none is configured. -/
def standardSuffix : String := "system"

/-- The suffix for renamed keys. One with nothing but digits would be read as a group, and is not
used. -/
def renameSuffix (config : ReconcileConfig) : String :=
  if config.renameSuffix.toList.all Char.isDigit then standardSuffix else config.renameSuffix

/-- The first name of the rename family of a key. -/
def renameFamily (suffix key : String) : String := key ++ "_" ++ suffix

/-- The user has a bank under the key that differs from the system bank. -/
def differsFromOwn (user : Library) (key : String) (system : Bank) : Bool :=
  match user.banks.get? key with
  | some own => !(own.isBlank || own.sameContents system)
  | none => false

/-- The key in the rename family of `key` that the user has a bank under. -/
def importedKey? (user : Library) (suffix key : String) : Option String :=
  user.banks.keys.find? (inFamily · (renameFamily suffix key))

/-- A key in the rename family of `key` that is not taken by a bank or a planned rename. -/
def freshKey? (user release : Library) (suffix : String) (plan : Renames) (key : String) :
    Option String :=
  firstFree? (renameFamily suffix key)
    (fun k => user.banks.contains k || release.banks.contains k || plan.any (·.2 == k))
    (user.banks.size + release.banks.size + plan.length)

/-- The key under which a system bank is imported that differs from the user's bank under its own
key: the one it was imported under before, or, if the key is new in this release, a free one. -/
def newKey? (user : Library) (baseline : Option Library) (release : Library) (suffix : String)
    (plan : Renames) (key : String) : Option String :=
  match importedKey? user suffix key with
  | some existing => some existing
  | none =>
    match baseline with
    | some prior =>
      if prior.banks.contains key then none else freshKey? user release suffix plan key
    | none => none

/-- The plan with one more system bank taken into account. -/
def extendPlan (user : Library) (baseline : Option Library) (release : Library) (suffix : String)
    (plan : Renames) (entry : String × Bank) : Renames :=
  if differsFromOwn user entry.1 entry.2 then
    match newKey? user baseline release suffix plan entry.1 with
    | some newKey => plan ++ [(entry.1, newKey)]
    | none => plan
  else plan

/-- The keys of a release that get another name, in the order of the release. -/
def planRenames (user : Library) (baseline : Option Library) (release : Library)
    (suffix : String) : Renames :=
  release.banks.entries.foldl (extendPlan user baseline release suffix) []

end Reconcile

end Stencil
