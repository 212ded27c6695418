import Stencil.Number.Binary64
import Stencil.Text.Numeral

/-!
# Shortest decimals

The decimal number with the fewest digits among those that a floating-point number is the nearest
one to, and of those with equally many digits the one closest to it. A tie goes to the even digit.

* `shortest` — the digits of that number and the power of ten of the first one.
-/

namespace Stencil.Number

open Text

/-- The magnitude `0.d₁d₂… * 10 ^ (point)`, where `digits` are `d₁ d₂ …`. -/
structure DecimalForm where
  /-- The digits, the first of them not zero. -/
  digits : List Char
  /-- The place of the decimal point after the first of the digits. -/
  point : Int

/-- The power of ten of the leading digit of a quotient other than zero. -/
def leadingPower (num den : Nat) : Int :=
  if den ≤ num then (digits (num / den)).length - 1
  else -(digits ((den + num - 1) / num - 1)).length

/-- The quotient `num / den * 10 ^ power`, as a quotient. -/
def scaleTen (num den : Nat) (power : Int) : Nat × Nat :=
  if 0 ≤ power then (num * tenTo power.toNat, den) else (num, den * tenTo (-power).toNat)

/-- What rounds to a number: the quotients from `low` to `high`, with the ends if `closed`. All have
the denominator `den`. -/
structure Neighbourhood where
  /-- The number itself. -/
  num : Nat
  /-- The lower end. -/
  low : Nat
  /-- The upper end. -/
  high : Nat
  /-- The common denominator. -/
  den : Nat
  /-- The ends belong to it. -/
  closed : Bool

/-- What rounds to a number other than zero. -/
def Neighbourhood.of (x : Binary64) : Neighbourhood :=
  let (unit, den) := Binary64.scale 1 1 (x.exponent - 2)
  let below := if x.mantissa = twoTo 52 && x.exponent != Binary64.minExponent then 1 else 2
  { num := 4 * x.mantissa * unit
    low := (4 * x.mantissa - below) * unit
    high := (4 * x.mantissa + 2) * unit
    den
    closed := x.mantissa % 2 == 0 }

/-- The decimal `n / scale` rounds to the number. -/
def Neighbourhood.holds (b : Neighbourhood) (n scale : Nat) : Bool :=
  if b.closed then b.low * scale ≤ n * b.den && n * b.den ≤ b.high * scale
  else b.low * scale < n * b.den && n * b.den < b.high * scale

/-- The decimal with the step `10 ^ (- power)` that rounds to the number and is closest to it. -/
def Neighbourhood.onGrid? (b : Neighbourhood) (power : Int) : Option Nat :=
  let (up, down) := scaleTen 1 1 power
  let below := b.num * up / (b.den * down)
  let fits (n : Nat) := b.holds (n * down) up
  let twice := 2 * (b.num * up)
  let middle := (2 * below + 1) * (b.den * down)
  match fits below, fits (below + 1) with
  | true, true =>
    some (if twice < middle || (twice == middle && below % 2 == 0) then below else below + 1)
  | true, false => some below
  | false, true => some (below + 1)
  | false, false => none

/-- The digits without the zeros at their end. -/
def stripZeros (cs : List Char) : List Char := (cs.reverse.dropWhile (· == '0')).reverse

/-- The shortest decimal that a number other than zero is nearest to. -/
def shortest (x : Binary64) : DecimalForm :=
  let b := Neighbourhood.of x
  let leading := leadingPower b.num b.den
  let found := (List.range 17).findSome? fun (n : Nat) =>
    let power : Int := n - leading
    (b.onGrid? power).map (·, power)
  match found with
  | some (n, power) => ⟨stripZeros (digits n), (digits n).length - power⟩
  | none => ⟨['0'], 1⟩

end Stencil.Number
