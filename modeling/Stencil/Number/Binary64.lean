import Stencil.Text.Numeral

/-!
# Binary floating-point numbers

Finite numbers of the 64-bit binary format: a sign and `mantissa * 2 ^ exponent` with a mantissa
below `2 ^ 53`. Results of arithmetic go to the nearest such number, a tie to the even mantissa.

* `Binary64.ofRatio?` — the number nearest to a quotient, if it is not too large;
* `Binary64.mul?` and `Binary64.div?` — rounded products and quotients.
-/

namespace Stencil.Number

/-- A finite number `± mantissa * 2 ^ exponent`. -/
structure Binary64 where
  /-- The sign; zero has one too. -/
  negative : Bool
  /-- An integer below `2 ^ 53`. -/
  mantissa : Nat
  /-- The power of two it is multiplied by. -/
  exponent : Int
deriving DecidableEq, Repr

namespace Binary64

/-- The least exponent. -/
def minExponent : Int := -1074

/-- The greatest exponent. -/
def maxExponent : Int := 971

/-- The number zero, with a sign. -/
def zero (negative : Bool) : Binary64 := ⟨negative, 0, 0⟩

/-- The numbers `+ 0` and `- 0`. -/
def isZero (x : Binary64) : Bool := x.mantissa == 0

/-- The quotient of two numbers, rounded to the nearest integer; a tie goes to the even one. -/
def roundQuotient (num den : Nat) : Nat :=
  let q := num / den
  let r := num % den
  if 2 * r < den || (2 * r == den && q % 2 == 0) then q else q + 1

/-- A quotient multiplied by a power of two, as a quotient. -/
def scale (num den : Nat) (power : Int) : Nat × Nat :=
  if 0 ≤ power then (num * twoTo power.toNat, den) else (num, den * twoTo (-power).toNat)

/-- The number nearest to `num / den`; there is none beyond the greatest one. -/
def ofRatio? (negative : Bool) (num den : Nat) : Option Binary64 :=
  if num = 0 then some (zero negative) else
  let guess : Int := num.log2 - den.log2 - 53
  let (n, d) := scale num den (-guess)
  let exponent := max (if n / d < twoTo 53 then guess else guess + 1) minExponent
  let (n, d) := scale num den (-exponent)
  let mantissa := roundQuotient n d
  let (mantissa, exponent) :=
    if mantissa = twoTo 53 then (twoTo 52, exponent + 1) else (mantissa, exponent)
  if mantissa = 0 then some (zero negative)
  else if maxExponent < exponent then none
  else some ⟨negative, mantissa, exponent⟩

/-- The number nearest to a natural number. -/
def ofNat? (negative : Bool) (n : Nat) : Option Binary64 := ofRatio? negative n 1

/-- The rounded product. -/
def mul? (x y : Binary64) : Option Binary64 :=
  let (n, d) := scale (x.mantissa * y.mantissa) 1 (x.exponent + y.exponent)
  ofRatio? (x.negative != y.negative) n d

/-- The rounded quotient, for a divisor other than zero. -/
def div? (x y : Binary64) : Option Binary64 :=
  let (n, d) := scale x.mantissa y.mantissa (x.exponent - y.exponent)
  ofRatio? (x.negative != y.negative) n d

end Binary64

end Stencil.Number
