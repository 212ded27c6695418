import Stencil.Json.Basic
import Stencil.Number.Shortest
import Stencil.Text.Numeral

/-!
# Writing documents

The compact text of a value: no white space, members in order, and in strings only the escapes that
are needed.

* `Json.compact` — the text of a value;
* `≈` — two values have the same canonical form, so that the order of members and the sign of a
  zero do not matter, while `1` and `1.0` are different.
-/

namespace Stencil

open Text Number

namespace Json

/-! ## Numbers -/

/-- The greatest place of the decimal point that is written without an exponent. -/
def maxPoint : Int := 16

/-- The least one. -/
def minPoint : Int := -4

/-- The text of an integer. -/
def intText (n : Int) : String :=
  if n < 0 then "-" ++ decimal n.natAbs else decimal n.natAbs

/-- A run of zeros. -/
def zeros (n : Int) : List Char := List.replicate n.toNat '0'

/-- The text of a number other than zero. It is written with a decimal point and no exponent if its
point lies between `minPoint` and `maxPoint`, and otherwise with one digit before the point. -/
def formText (d : DecimalForm) : List Char :=
  let size : Int := d.digits.length
  if size ≤ d.point ∧ d.point ≤ maxPoint then d.digits ++ zeros (d.point - size) ++ ['.', '0']
  else if 0 < d.point ∧ d.point ≤ maxPoint then
    d.digits.take d.point.toNat ++ '.' :: d.digits.drop d.point.toNat
  else if minPoint ≤ d.point ∧ d.point ≤ 0 then ['0', '.'] ++ zeros (-d.point) ++ d.digits
  else
    let power := 'e' :: (intText (d.point - 1)).toList
    match d.digits with
    | [c] => c :: power
    | c :: cs => c :: '.' :: cs ++ power
    | [] => power

/-- The text of a floating-point number. -/
def floatText (x : Binary64) : String :=
  let magnitude := if x.isZero then ['0', '.', '0'] else formText (shortest x)
  String.ofList (if x.negative then '-' :: magnitude else magnitude)

/-! ## Strings -/

/-- A character as it stands in a string. -/
def escape (c : Char) : String :=
  if c = '"' then "\\\"" else
  if c = '\\' then "\\\\" else
  if 0x20 ≤ c.toNat then c.toString else
  if c = '\x08' then "\\b" else
  if c = '\t' then "\\t" else
  if c = '\n' then "\\n" else
  if c = '\x0c' then "\\f" else
  if c = '\r' then "\\r" else
  ("\\u00".push (hexDigit (c.toNat / 16))).push (hexDigit (c.toNat % 16))

/-- Append a string in quotation marks. -/
def writeString (out : String) (s : String) : String :=
  (s.toList.foldl (fun out c => out ++ escape c) (out.push '"')).push '"'

/-! ## Values -/

mutual

/-- Append the text of a value. -/
def write (out : String) : Json → String
  | null => out ++ "null"
  | bool b => out ++ if b then "true" else "false"
  | int n => out ++ intText n
  | float x => out ++ floatText x
  | str s => writeString out s
  | arr items => (writeItems true (out.push '[') items).push ']'
  | obj members => (writeMembers true (out.push '\x7b') members).push '\x7d'
  | unreadable => out

/-- Append the items of an array, with a comma before each but the first. -/
def writeItems (first : Bool) (out : String) : List Json → String
  | [] => out
  | v :: vs => writeItems false (write (if first then out else out.push ',') v) vs

/-- Append the members of an object, with a comma before each but the first. -/
def writeMembers (first : Bool) (out : String) : List (String × Json) → String
  | [] => out
  | (k, v) :: ms =>
    let out := if first then out else out.push ','
    writeMembers false (write ((writeString out k).push ':') v) ms

end

/-- The text of a value. -/
def compact (v : Json) : String := v.write ""

/-! ## Comparison -/

/-- Two values are alike when their canonical forms are written alike. -/
instance : Setoid Json where
  r v w := v.canonical.compact = w.canonical.compact
  iseqv := ⟨fun _ => rfl, Eq.symm, Eq.trans⟩

instance (v w : Json) : Decidable (v ≈ w) :=
  decidable_of_iff (v.canonical.compact = w.canonical.compact) Iff.rfl

end Json

end Stencil
