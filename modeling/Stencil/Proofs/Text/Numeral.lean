import Mathlib.Data.List.Induction
import Stencil.Text.Numeral

/-!
# Numerals

A number is written in one way and read in many: zeros may stand before its digits, and a plus sign
before these.

* `exists_replicate_append_digits` — a numeral is the digits of its value behind some zeros;
* `spelling` — the digits of a number behind a sign and zeros, and `readNatural?_eq_some_iff`, which
  says that these are the ways to spell it.
-/

namespace Stencil.Text

variable {cs : List Char} {c : Char}

/-! ## Digits and values -/

theorem digitValue_lt (h : c.isDigit) : digitValue c < 10 := by
  have hnine : '9'.toNat = '0'.toNat + 9 := rfl
  rw [Char.isDigit_iff_toNat, hnine] at h
  rw [digitValue]
  omega

theorem digitChar_digitValue (h : c.isDigit) : digitChar (digitValue c) = c := by
  rw [Char.isDigit_iff_toNat] at h
  rw [digitChar, digitValue, Nat.add_sub_cancel' h.1, Char.ofNat_toNat]

theorem value_concat (cs : List Char) (c : Char) :
    value (cs ++ [c]) = 10 * value cs + digitValue c := by
  rw [value, List.foldl_append]
  rfl

theorem value_replicate_append (zeros : Nat) (cs : List Char) :
    value (List.replicate zeros '0' ++ cs) = value cs := by
  induction zeros with
  | zero => rfl
  | succ zeros ih => exact ih

/-- The digits of a number with one more digit. -/
theorem digits_ten_mul_add {n d : Nat} (hn : n ≠ 0) (hd : d < 10) :
    digits (10 * n + d) = digits n ++ [digitChar d] := by
  have hdiv : (10 * n + d) / 10 = n := by omega
  have hmod : (10 * n + d) % 10 = d := by omega
  rw [digits, if_neg (by omega), hdiv, hmod]

theorem isNumeral_iff : isNumeral cs ↔ cs ≠ [] ∧ ∀ c ∈ cs, c.isDigit := by
  simp [isNumeral]

/-- **A numeral is the digits of its value behind some zeros.** -/
theorem exists_replicate_append_digits (h : isNumeral cs) :
    ∃ zeros, cs = List.replicate zeros '0' ++ digits (value cs) := by
  rw [isNumeral_iff] at h
  induction cs using List.reverseRecOn with
  | nil => exact absurd rfl h.1
  | append_singleton cs c ih =>
    have hc : c.isDigit := h.2 c (by simp)
    have hlast : digits (digitValue c) = [c] := by
      rw [digits, if_pos (digitValue_lt hc), digitChar_digitValue hc]
    rw [value_concat]
    by_cases hnil : cs = []
    · subst hnil
      exact ⟨0, by simp [value, hlast]⟩
    · obtain ⟨zeros, hzeros⟩ := ih ⟨hnil, fun d hd => h.2 d (List.mem_append_left _ hd)⟩
      by_cases hvalue : value cs = 0
      · -- all digits before the last are zeros
        have hdigits : digits 0 = ['0'] := by rw [digits, if_pos (by omega)]; rfl
        refine ⟨zeros + 1, ?_⟩
        rw [hvalue, hdigits] at hzeros
        rw [hvalue, Nat.mul_zero, Nat.zero_add, hlast, List.replicate_succ', ← hzeros]
      · refine ⟨zeros, ?_⟩
        rw [digits_ten_mul_add hvalue (digitValue_lt hc), digitChar_digitValue hc,
          ← List.append_assoc, ← hzeros]

/-! ## Spellings -/

/-- The digits of a number behind some zeros and perhaps a plus sign. -/
def spelling (plus : Bool) (zeros n : Nat) : List Char :=
  (if plus then ['+'] else []) ++ (List.replicate zeros '0' ++ digits n)

theorem isNumeral_replicate_append_digits (zeros n : Nat) :
    isNumeral (List.replicate zeros '0' ++ digits n) := by
  refine isNumeral_iff.2 ⟨by simp [digits_ne_nil], fun c hc => ?_⟩
  rcases List.mem_append.1 hc with hc | hc
  · obtain rfl := List.eq_of_mem_replicate hc
    rfl
  · exact isDigit_of_mem_digits hc

theorem readNatural?_of_isNumeral (h : isNumeral cs) : readNatural? cs = some (value cs) := by
  unfold readNatural?
  split
  · rename_i rest
    have hplus : ('+').isDigit := (isNumeral_iff.1 h).2 _ List.mem_cons_self
    exact absurd hplus (by decide)
  · rw [if_pos h]

/-- **A number is read from its digits behind some zeros and perhaps a plus sign**, and from nothing
else. -/
theorem readNatural?_eq_some_iff {n : Nat} :
    readNatural? cs = some n ↔ ∃ plus zeros, cs = spelling plus zeros n := by
  have hnumeral {ds : List Char} (h : (if isNumeral ds then some (value ds) else none) = some n) :
      ∃ zeros, ds = List.replicate zeros '0' ++ digits n := by
    obtain ⟨hds, hvalue⟩ := Option.ite_none_right_eq_some.1 h
    exact Option.some.inj hvalue ▸ exists_replicate_append_digits hds
  constructor
  · intro h
    unfold readNatural? at h
    split at h
    · obtain ⟨zeros, rfl⟩ := hnumeral h
      exact ⟨true, zeros, rfl⟩
    · obtain ⟨zeros, rfl⟩ := hnumeral h
      exact ⟨false, zeros, rfl⟩
  · rintro ⟨plus, zeros, rfl⟩
    have hdigits := isNumeral_replicate_append_digits zeros n
    have hvalue : value (List.replicate zeros '0' ++ digits n) = n := by
      rw [value_replicate_append, value_digits]
    cases plus with
    | false => exact (readNatural?_of_isNumeral hdigits).trans (congrArg some hvalue)
    | true => exact (if_pos hdigits).trans (congrArg some hvalue)

theorem dash_notMem_spelling (plus : Bool) (zeros n : Nat) : '-' ∉ spelling plus zeros n := by
  intro hdash
  rcases List.mem_append.1 hdash with hdash | hdash
  · cases plus <;> simp at hdash
  · have hdigit := (isNumeral_iff.1 (isNumeral_replicate_append_digits zeros n)).2 _ hdash
    exact absurd hdigit (by decide)

/-- Only without a sign and zeros is a number spelled as it is written. -/
theorem spelling_eq_digits_iff {plus : Bool} {zeros n : Nat} :
    spelling plus zeros n = digits n ↔ ¬ (plus ∨ 0 < zeros) := by
  constructor
  · intro h
    have hlength := congrArg List.length h
    cases plus <;> simp [spelling] at hlength ⊢ <;> omega
  · rw [not_or, Nat.not_lt, Nat.le_zero]
    rintro ⟨hplus, rfl⟩
    simp [spelling, hplus]

end Stencil.Text
