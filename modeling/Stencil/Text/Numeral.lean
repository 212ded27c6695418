/-!
# Numerals

Natural numbers written in ASCII digits, and read from them. Main statements: `value_digits`, which
says that reading undoes writing, and `digits_ne_nil`.

* `Number.twoTo`, `Number.tenTo` — the powers that limits of words and places of numerals are made
  of;
* `digits`, `decimal`, `value`, `readNatural?` — decimal numerals;
* `hexDigits`, `hexValue?` — hexadecimal ones.
-/

namespace Stencil

/-- A power of two. -/
abbrev Number.twoTo (n : Nat) : Nat := Nat.pow 2 n

/-- A power of ten. -/
abbrev Number.tenTo (n : Nat) : Nat := Nat.pow 10 n

namespace Text

/-! ## Decimal digits -/

/-- The digit of a number below ten. -/
def digitChar (n : Nat) : Char := Char.ofNat ('0'.toNat + n)

/-- The number of a digit. -/
def digitValue (c : Char) : Nat := c.toNat - '0'.toNat

/-- The decimal digits of a number, without leading zeros. -/
def digits (n : Nat) : List Char :=
  if n < 10 then [digitChar n] else digits (n / 10) ++ [digitChar (n % 10)]
termination_by n
decreasing_by omega

/-- The number that a run of digits denotes. -/
def value (cs : List Char) : Nat := cs.foldl (fun n c => 10 * n + digitValue c) 0

/-- A number in decimal. -/
def decimal (n : Nat) : String := String.ofList (digits n)

/-- One or more ASCII digits, and nothing else. -/
def isNumeral (cs : List Char) : Bool := !cs.isEmpty && cs.all Char.isDigit

/-- The number that a numeral denotes, after at most one plus sign. -/
def readNatural? (cs : List Char) : Option Nat :=
  match cs with
  | '+' :: rest => if isNumeral rest then some (value rest) else none
  | _ => if isNumeral cs then some (value cs) else none

@[simp] theorem digitValue_digitChar {n : Nat} (h : n < 10) : digitValue (digitChar n) = n := by
  have : ∀ n < 10, digitValue (digitChar n) = n := by decide
  exact this n h

theorem isDigit_digitChar {n : Nat} (h : n < 10) : (digitChar n).isDigit := by
  have : ∀ n < 10, (digitChar n).isDigit := by decide
  exact this n h

theorem digits_ne_nil (n : Nat) : digits n ≠ [] := by
  rw [digits]; split <;> simp

theorem isDigit_of_mem_digits {n : Nat} {c : Char} (h : c ∈ digits n) : c.isDigit := by
  induction n using digits.induct with
  | case1 n hn =>
    rw [digits, if_pos hn] at h
    obtain rfl := List.mem_singleton.1 h
    exact isDigit_digitChar hn
  | case2 n hn ih =>
    rw [digits, if_neg hn, List.mem_append, List.mem_singleton] at h
    rcases h with h | rfl
    · exact ih h
    · exact isDigit_digitChar (by omega)

/-- Reading a numeral gives back the number written. -/
@[simp] theorem value_digits (n : Nat) : value (digits n) = n := by
  induction n using digits.induct with
  | case1 n hn => rw [digits, if_pos hn]; simp [value, hn]
  | case2 n hn ih =>
    rw [digits, if_neg hn, value, List.foldl_append, List.foldl_cons, List.foldl_nil]
    rw [value] at ih
    rw [ih, digitValue_digitChar (by omega)]
    omega

theorem isNumeral_digits (n : Nat) : isNumeral (digits n) := by
  simp only [isNumeral, Bool.and_eq_true, Bool.not_eq_true', List.isEmpty_eq_false_iff,
    List.all_eq_true]
  exact ⟨digits_ne_nil n, fun c hc => isDigit_of_mem_digits hc⟩

theorem isNumeral_decimal (n : Nat) : isNumeral (decimal n).toList := by
  rw [decimal, String.toList_ofList]
  exact isNumeral_digits n

/-! ## Hexadecimal digits, with small letters -/

/-- The hexadecimal digit of a number below sixteen. -/
def hexDigit (n : Nat) : Char :=
  if n < 10 then digitChar n else Char.ofNat ('a'.toNat + (n - 10))

/-- The hexadecimal digits of a number, without leading zeros. -/
def hexDigits (n : Nat) : List Char :=
  if n < 16 then [hexDigit n] else hexDigits (n / 16) ++ [hexDigit (n % 16)]
termination_by n
decreasing_by omega

/-- The value of a hexadecimal digit in small or capital form. -/
def hexValue? (c : Char) : Option Nat :=
  if c.isDigit then some (digitValue c)
  else if 'a' ≤ c ∧ c ≤ 'f' then some (c.toNat - 'a'.toNat + 10)
  else if 'A' ≤ c ∧ c ≤ 'F' then some (c.toNat - 'A'.toNat + 10)
  else none

end Text

end Stencil
