import Stencil.Json.Number
import Stencil.Text.Numeral
import Stencil.Text.Scan
import Stencil.Toml.Basic

/-!
# Numbers of a configuration file

An integer is written in decimal with an optional sign, or in hexadecimal, octal or binary without
one, and has to fit a signed word. Any other number has a fraction or an exponent, and stands for
the nearest floating-point number; or it is one of the names `inf` and `nan`. Single underscores
may stand between digits.

* `Scan.integer` and `Scan.real` — the two kinds of numbers.
-/

namespace Stencil

open Text Number

/-- The number nearest to a number as written. There is none for a positive number beyond the
greatest one; a negative number beyond the least one is infinite. -/
def NumberText.nearest? (t : NumberText) : Option Toml.Real :=
  let significand := value (t.whole ++ t.fraction)
  let written : Int := match t.exponent with
    | none => 0
    | some (minus, run) => if minus then -value run else value run
  let power := written - t.fraction.length
  let size := (digits significand).length + power
  let nearest : Option Binary64 :=
    if significand = 0 ∨ size < -330 then some (Binary64.zero t.negative)
    else if 330 < size then none
    else if 0 ≤ power then Binary64.ofNat? t.negative (significand * tenTo power.toNat)
    else Binary64.ofRatio? t.negative significand (tenTo power.natAbs)
  match nearest with
  | some x => some (.finite x)
  | none => if t.negative then some (.infinite true) else none

namespace Toml.Scan

open Number Text.Scan

/-- A digit of a numeral with the given base. -/
def isDigitOf (base : Nat) (c : Char) : Bool := (hexValue? c).any (· < base)

/-- Digits of a numeral with the given base; there may be single underscores between them. -/
def numeral (base : Nat) : Scan (List Char) := do
  let first ← char (isDigitOf base)
  let others ← many (do let _ ← optional (mark '_'); char (isDigitOf base))
  pure (first :: others)

/-- The number of a numeral. -/
def numeralValue (base : Nat) (cs : List Char) : Nat :=
  cs.foldl (fun n c => base * n + (hexValue? c).getD 0) 0

/-- There is a minus sign; a plus sign may stand there too. -/
def minusSign : Scan Bool :=
  (do mark '-'; pure true) <|> (do mark '+'; pure false) <|> pure false

/-- A numeral without leading zeros. -/
def wholeNumeral : Scan (List Char) := do
  let cs ← numeral 10
  if cs.head? == some '0' && cs.length != 1 then failure else pure cs

/-- An integer without a sign in the base that a letter after a zero stands for. -/
def basedInteger (letter : Char) (base : Nat) : Scan Int := do
  word ['0', letter]
  let n := numeralValue base (← numeral base)
  if n < twoTo 63 then pure n else failure

/-- An integer in decimal. -/
def decimalInteger : Scan Int := do
  let minus ← minusSign
  let n := numeralValue 10 (← wholeNumeral)
  if minus then if n ≤ twoTo 63 then pure (-n) else failure
  else if n < twoTo 63 then pure n else failure

/-- An integer. -/
def integer : Scan Int :=
  basedInteger 'x' 16 <|> basedInteger 'o' 8 <|> basedInteger 'b' 2 <|> decimalInteger

/-- An exponent: its sign and digits. -/
def exponent : Scan (Bool × List Char) := do
  let _ ← char fun c => c == 'e' || c == 'E'
  let minus ← minusSign
  pure (minus, ← numeral 10)

/-- A fraction. -/
def fraction : Scan (List Char) := do
  mark '.'
  numeral 10

/-- A number with a fraction or an exponent. -/
def written : Scan NumberText := do
  let minus ← minusSign
  let whole ← wholeNumeral
  (do pure ⟨minus, whole, [], some (← exponent)⟩) <|>
    (do pure ⟨minus, whole, ← fraction, ← optional exponent⟩)

/-- A number that is no integer. -/
def real : Scan Real :=
  (do
    match (← written).nearest? with
    | some x => pure x
    | none => failure) <|>
  (do
    let minus ← minusSign
    (do word ['i', 'n', 'f']; pure (.infinite minus)) <|>
      (do word ['n', 'a', 'n']; pure .notANumber))

end Toml.Scan

end Stencil
