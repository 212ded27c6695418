import Stencil.Json.Basic
import Stencil.Text.Numeral

/-!
# Numbers in a document

A number is written as digits with an optional sign, fraction and exponent. An integer that fits a
64-bit word, signed or unsigned, stays an integer. Any other number becomes a floating-point one:
as many digits as fit an unsigned word make an integer, and that integer is multiplied or divided
by a power of ten. Both steps round, so the result may differ from the nearest number in its last
place.

* `NumberText.atHead?` — the number a text begins with;
* `NumberText.toJson` — its value.
-/

namespace Stencil

open Text Number

/-- A number as written. -/
structure NumberText where
  /-- There is a minus sign. -/
  negative : Bool
  /-- The digits before the point. -/
  whole : List Char
  /-- The digits after the point; empty if there is none. -/
  fraction : List Char
  /-- The sign and digits of the exponent. -/
  exponent : Option (Bool × List Char)

namespace NumberText

/-- A run of digits at the start of a text, and what follows it. -/
def digitsAtHead? (cs : List Char) : Option (List Char × List Char) :=
  let run := cs.takeWhile Char.isDigit
  if run.isEmpty then none else some (run, cs.dropWhile Char.isDigit)

/-- The fraction a text begins with, if it begins with a point. -/
def fractionAtHead? : List Char → Option (List Char × List Char)
  | '.' :: rest => digitsAtHead? rest
  | rest => some ([], rest)

/-- The exponent a text begins with, if it begins with the letter for one. -/
def exponentAtHead? : List Char → Option (Option (Bool × List Char) × List Char)
  | c :: rest =>
    if c == 'e' || c == 'E' then
      match rest with
      | '+' :: rest => (digitsAtHead? rest).map fun (run, rest) => (some (false, run), rest)
      | '-' :: rest => (digitsAtHead? rest).map fun (run, rest) => (some (true, run), rest)
      | rest => (digitsAtHead? rest).map fun (run, rest) => (some (false, run), rest)
    else some (none, c :: rest)
  | [] => some (none, [])

/-- A number without its sign at the start of a text. A leading zero stands alone. -/
def unsignedAtHead? (negative : Bool) (cs : List Char) : Option (NumberText × List Char) := do
  let (whole, rest) ← digitsAtHead? cs
  if whole.head? == some '0' && whole.length != 1 then none
  let (fraction, rest) ← fractionAtHead? rest
  let (exponent, rest) ← exponentAtHead? rest
  some (⟨negative, whole, fraction, exponent⟩, rest)

/-- The number a text begins with, and what follows it. -/
def atHead? : List Char → Option (NumberText × List Char)
  | '-' :: rest => unsignedAtHead? true rest
  | rest => unsignedAtHead? false rest

/-! ## Values -/

/-- The greatest unsigned word. -/
def maxWord : Nat := twoTo 64 - 1

/-- The greatest exponent that is read as a number. -/
def maxExponent : Nat := twoTo 31 - 1

/-- An integer made of leading digits, and the power of ten that goes with it. -/
structure Leading where
  /-- The integer. -/
  significand : Nat
  /-- The power of ten. -/
  power : Int
  /-- A digit did not fit. -/
  full : Bool

/-- A digit before the point. From the first one that does not fit on, digits only count. -/
def Leading.addWhole (l : Leading) (c : Char) : Leading :=
  let next := 10 * l.significand + digitValue c
  if l.full || maxWord < next then { l with power := l.power + 1, full := true }
  else { l with significand := next }

/-- A digit after the point. From the first one that does not fit on, digits are left out. -/
def Leading.addFraction (l : Leading) (c : Char) : Leading :=
  let next := 10 * l.significand + digitValue c
  if l.full || maxWord < next then { l with full := true }
  else { l with significand := next, power := l.power - 1 }

/-- The leading digits of a number. -/
def leading (t : NumberText) : Leading :=
  let whole := t.whole.foldl Leading.addWhole ⟨0, 0, false⟩
  t.fraction.foldl Leading.addFraction { whole with full := false }

/-- The greatest power of ten that is multiplied or divided by at once. -/
def maxPower : Nat := 308

/-- A number divided by a power of ten, in as many steps as it takes. -/
def divideByTen (fuel : Nat) (x : Binary64) (power : Nat) : Option Binary64 :=
  match fuel with
  | 0 => some x
  | fuel + 1 =>
    if x.isZero then some x
    else if power ≤ maxPower then do x.div? (← Binary64.ofNat? false (tenTo power))
    else do
      let x ← x.div? (← Binary64.ofNat? false (tenTo maxPower))
      divideByTen fuel x (power - maxPower)

/-- A significand multiplied by a power of ten; there is no value beyond the greatest number. -/
def combine? (negative : Bool) (significand : Nat) (power : Int) : Option Binary64 := do
  let x ← Binary64.ofNat? negative significand
  if power < 0 then divideByTen 4 x power.natAbs
  else if x.isZero then some x
  else if power ≤ maxPower then x.mul? (← Binary64.ofNat? false (tenTo power.toNat))
  else none

/-- The floating-point number for leading digits and an exponent. -/
def float? (t : NumberText) : Option Binary64 :=
  let l := t.leading
  match t.exponent with
  | none => combine? t.negative l.significand l.power
  | some (minus, run) =>
    if maxExponent < value run then
      if l.significand != 0 && !minus then none else some (Binary64.zero t.negative)
    else
      combine? t.negative l.significand
        (if minus then l.power - value run else l.power + value run)

/-- The integer that a number is, if it is written as one and fits a word. -/
def integer? (t : NumberText) : Option Int :=
  let n := value t.whole
  if !t.fraction.isEmpty || t.exponent.isSome then none
  else if t.negative then if 0 < n && n ≤ twoTo 63 then some (-n) else none
  else if n ≤ maxWord then some n
  else none

/-- The value of a number. -/
def toJson (t : NumberText) : Json :=
  match t.integer? with
  | some n => .int n
  | none =>
    match t.float? with
    | some x => .float x
    | none => .unreadable

end NumberText

end Stencil
