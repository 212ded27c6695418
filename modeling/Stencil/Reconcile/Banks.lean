import Stencil.Library.Basic
import Stencil.Reconcile.Note

/-!
# Reconciled banks

What becomes of a bank is decided by the user's copy, the copy of the last release and the copy of
the new one. A bank that the user edited is kept and gains the options that are new in the release;
options that were in the last release were the user's to keep or drop.

* `BankVerdict.of` — what becomes of a bank of the user;
* `addedBanks` — banks that are new in a release.
-/

namespace Stencil.Reconcile

/-- What becomes of a bank of the user. -/
inductive BankVerdict where
  /-- It is not a system bank. -/
  | own
  /-- The user's copy has nothing that the system copy lacks. -/
  | adopted (system : Bank)
  /-- The user did not edit the options of the last version. -/
  | upgraded (system : Bank)
  /-- The user edited it. The bank has gained `added` options; `headerKept` says that its label or
  category differs from the system's, and `headerMoved` that the system's is not the last one. -/
  | merged (bank : Bank) (added : Nat) (headerKept headerMoved : Bool)

namespace BankVerdict

/-- The bank with the options that are new since the last release. -/
def withNewOptions (b : Bank) (prior : Option Bank) (system : Bank) : Bank :=
  (system.options.filter fun o => !prior.any (·.hasOption o)).foldl Bank.pushOption b

/-- What becomes of a bank of the user, given the copies of the last and the new release. -/
def of (own : Bank) (prior system : Option Bank) : BankVerdict :=
  match system with
  | none => .own
  | some system =>
    let filled := own.fillAbsent system
    if own.isBlank then .adopted system
    else if !filled.headerDiffers system && filled.sameOptions system then .adopted system
    else if prior.any fun p => own.absent.options || p.sameOptions own then .upgraded system
    else
      let bank := withNewOptions filled prior system
      .merged bank (bank.options.length - filled.options.length) (own.headerDiffers system)
        (prior.all (·.headerDiffers system))

/-- The bank that results. -/
def result (own : Bank) : BankVerdict → Bank
  | .own => own
  | adopted system => system
  | upgraded system => system
  | merged bank _ _ _ => bank

/-- The user did not edit the options of the last version. -/
def isUpgraded : BankVerdict → Bool
  | upgraded _ => true
  | _ => false

/-- The user edited it. -/
def isMerged : BankVerdict → Bool
  | merged _ _ _ _ => true
  | _ => false

/-- What the user is told about a bank: that there are new options, or that a label or category was
kept for which the system has a new one. -/
def note? (key : String) : BankVerdict → Option Note
  | merged _ added headerKept headerMoved =>
    if 0 < added || (headerKept && headerMoved) then some (.bankKept key added headerKept)
    else none
  | _ => none

end BankVerdict

/-- What becomes of the banks of the user, with the banks themselves. -/
def judgeBanks (user : Library) (baseline : Option Library) (release : Library) :
    OrderedMap (Bank × BankVerdict) :=
  user.banks.map fun key own =>
    (own, .of own (baseline.bind (·.banks.get? key)) (release.banks.get? key))

/-- The banks of a release that neither the user nor the last release has. -/
def addedBanks (user : Library) (baseline : Option Library) (release : Library) :
    OrderedMap Bank :=
  release.banks.filter fun key _ =>
    !user.banks.contains key && !baseline.any (·.banks.contains key)

/-- The banks of a reconciled library. -/
def mergeBanks (user : Library) (baseline : Option Library) (release : Library) :
    OrderedMap Bank :=
  ((judgeBanks user baseline release).map fun _ (own, verdict) => verdict.result own).insertAll
    (addedBanks user baseline release).entries

/-- What the user is told about banks. -/
def bankNotes (user : Library) (baseline : Option Library) (release : Library) : List Note :=
  (judgeBanks user baseline release).entries.filterMap fun (key, _, verdict) => verdict.note? key

end Stencil.Reconcile
