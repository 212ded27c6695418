import Stencil.Bank.Basic
import Stencil.Proofs.Placeholder.Renaming

/-!
# Keys that placeholders can name

A key of letters, digits and underscores can stand between double braces and is read as it is
written, unless it ends in what reads as a group.

* `split_trim_join_iff` — when a key and a group are read back as they were put together;
* `Bank.Nameable` — the keys that a placeholder can name, in the spelling in which banks are stored;
* `Bank.usableKey?_eq_some_iff` — what a user types becomes such a key, and one that is such a key
  already stays as it is.
-/

namespace Stencil

open Text Placeholder

namespace Bank

/-! ## Characters of keys -/

/-- What holds of all ASCII characters, checked one by one. -/
private theorem ascii_forall {p : Char → Prop} (h : ∀ n < 128, p (Char.ofNat n)) {c : Char}
    (hc : c.toNat < 128) : p c := by
  have hchar := h c.toNat hc
  rwa [Char.ofNat_toNat] at hchar

theorem toNat_lt_of_isKeyChar {c : Char} (h : isKeyChar c) : c.toNat < 128 := by
  change (c.isUpper || c.isLower || c.isDigit || c == '_') = true at h
  simp only [Bool.or_eq_true, beq_iff_eq] at h
  rcases h with ((h | h) | h) | rfl
  · have hle : c.val ≤ 'Z'.val := (of_decide_eq_true h).2
    exact lt_of_le_of_lt (UInt32.le_iff_toNat_le.1 hle) (by decide)
  · have hle : c.val ≤ 'z'.val := of_decide_eq_true (Bool.and_eq_true_iff.1 h).2
    exact lt_of_le_of_lt (UInt32.le_iff_toNat_le.1 hle) (by decide)
  · have hle : c.val ≤ '9'.val := of_decide_eq_true (Bool.and_eq_true_iff.1 h).2
    exact lt_of_le_of_lt (UInt32.le_iff_toNat_le.1 hle) (by decide)
  · decide

theorem isInner_of_isKeyChar {c : Char} (h : isKeyChar c) : Slot.isInner c :=
  ascii_forall (p := fun c => isKeyChar c → Slot.isInner c) (by decide +kernel)
    (toNat_lt_of_isKeyChar h) h

theorem not_isSpace_of_isKeyChar {c : Char} (h : isKeyChar c) : ¬ isSpace c :=
  ascii_forall (p := fun c => isKeyChar c → ¬ isSpace c) (by decide +kernel)
    (toNat_lt_of_isKeyChar h) h

theorem isKeyChar_of_isDigit {c : Char} (h : c.isDigit) : isKeyChar c := by
  simp [isKeyChar, Char.isAlphanum, h]

/-- A character that may stand in a stored key. -/
def isSmallKeyChar (c : Char) : Bool := c.isLower || c.isDigit || c == '_'

theorem isKeyChar_of_isSmallKeyChar {c : Char} (h : isSmallKeyChar c) : isKeyChar c := by
  change (c.isUpper || c.isLower || c.isDigit || c == '_') = true
  simp only [isSmallKeyChar, Bool.or_eq_true] at h ⊢
  tauto

theorem isSmallKeyChar_toLower {c : Char} (h : isKeyChar c) : isSmallKeyChar c.toLower :=
  ascii_forall (p := fun c => isKeyChar c → isSmallKeyChar c.toLower) (by decide +kernel)
    (toNat_lt_of_isKeyChar h) h

theorem toLower_of_isSmallKeyChar {c : Char} (h : isSmallKeyChar c) : c.toLower = c :=
  ascii_forall (p := fun c => isSmallKeyChar c → c.toLower = c) (by decide +kernel)
    (toNat_lt_of_isKeyChar (isKeyChar_of_isSmallKeyChar h)) h

/-! ## Texts of key characters -/

section KeyText

variable {s : String}

/-- There is no white space in a key, so none at its ends. -/
theorem trim_of_isKeyChar (h : ∀ c ∈ s.toList, isKeyChar c) : trim s = s := by
  have hspace : ∀ c ∈ s.toList, ¬ isSpace c := fun c hc => not_isSpace_of_isKeyChar (h c hc)
  have hstart : trimStart s.toList = s.toList := by
    cases hs : s.toList with
    | nil => rfl
    | cons c cs => exact trimStart_cons (hspace c (by simp [hs])) cs
  rw [trim, hstart]
  rcases List.eq_nil_or_concat s.toList with hs | ⟨cs, c, hs⟩
  · rw [hs, ← String.toList_inj, hs]
    rfl
  · rw [hs, List.concat_eq_append, trimEnd_concat _ (hspace c (by simp [hs])),
      ← List.concat_eq_append, ← hs, String.ofList_toList]

theorem isRawName_of_isKeyChar (hne : s ≠ "") (h : ∀ c ∈ s.toList, isKeyChar c) :
    IsRawName s.toList := by
  obtain ⟨c, cs, hs⟩ := List.exists_cons_of_ne_nil fun hnil => hne (String.toList_inj.1 hnil)
  have hc : c ∈ s.toList := by simp [hs]
  exact isRawName_iff.2
    ⟨fun d hd => isInner_of_isKeyChar (h d hd), c, hc, not_isSpace_of_isKeyChar (h c hc)⟩

variable {group : Option String}

theorem isKeyChar_join (h : ∀ c ∈ s.toList, isKeyChar c)
    (hgroup : ∀ g, group = some g → isNumeral g.toList) :
    ∀ c ∈ (Name.join ⟨s, group⟩).toList, isKeyChar c := by
  cases group with
  | none => exact h
  | some g =>
    have hdigits := (isNumeral_iff.1 (hgroup g rfl)).2
    simp only [Name.join, String.toList_append, List.mem_append]
    rintro c ((hc | hc) | hc)
    · exact h c hc
    · obtain rfl : c = '_' := by simpa using hc
      decide
    · exact isKeyChar_of_isDigit (hdigits c hc)

/-- **A key and a group are read back as they were put together**, and so is a key alone, if it does
not end in what reads as a group. -/
theorem split_trim_join_iff (hne : s ≠ "") (h : ∀ c ∈ s.toList, isKeyChar c)
    (hgroup : ∀ g, group = some g → isNumeral g.toList) :
    Name.split (trim (Name.join ⟨s, group⟩)) = ⟨s, group⟩ ↔
      group ≠ none ∨ (Name.split s).group = none := by
  rw [trim_of_isKeyChar (isKeyChar_join h hgroup)]
  cases group with
  | none =>
    rw [Name.join]
    constructor
    · intro hsplit
      exact .inr (by rw [hsplit])
    · intro hsplit
      exact Name.split_of_group_eq_none (hsplit.resolve_left (by simp))
  | some g => simp [Name.split_join hne (hgroup g rfl)]

end KeyText

/-! ## Keys of banks -/

/-- A key that a placeholder can name, as banks are stored under: small letters, digits and
underscores, not underscores only, and no group at its end. -/
structure Nameable (key : String) : Prop where
  isSmallKeyChar : ∀ c ∈ key.toList, isSmallKeyChar c
  notBlank : ∃ c ∈ key.toList, c ≠ '_'
  noGroup : (Name.split key).group = none

namespace Nameable

variable {key : String}

theorem isKeyChar (h : Nameable key) : ∀ c ∈ key.toList, isKeyChar c :=
  fun c hc => isKeyChar_of_isSmallKeyChar (h.isSmallKeyChar c hc)

theorem ne_empty (h : Nameable key) : key ≠ "" := by
  rintro rfl
  obtain ⟨c, hc, -⟩ := h.notBlank
  simp at hc

/-- A nameable key is read back, alone and with every group. -/
theorem baseReadsBack (h : Nameable key) : Name.BaseReadsBack key := by
  intro group hgroup
  have htrim := trim_of_isKeyChar (isKeyChar_join h.isKeyChar hgroup)
  have hsplit := (split_trim_join_iff h.ne_empty h.isKeyChar hgroup).2 (.inr h.noGroup)
  exact ⟨(isRawName_of_isKeyChar h.ne_empty h.isKeyChar).join hgroup, htrim, htrim ▸ hsplit⟩

/-- There is no dash in a key. -/
theorem dash_notMem (h : Nameable key) : '-' ∉ key.toList :=
  fun hdash => absurd (h.isKeyChar _ hdash) (by decide)

end Nameable

theorem isSmallKeyChar_sanitizeKey {raw : String} {c : Char} (hc : c ∈ (sanitizeKey raw).toList) :
    isSmallKeyChar c := by
  rw [sanitizeKey, String.toList_ofList] at hc
  obtain ⟨d, -, rfl⟩ := List.mem_map.1 hc
  split
  · exact isSmallKeyChar_toLower ‹_›
  · decide

theorem sanitizeKey_of_isSmallKeyChar {key : String} (h : ∀ c ∈ key.toList, isSmallKeyChar c) :
    sanitizeKey key = key := by
  have hkey : ∀ c ∈ key.toList, isKeyChar c := fun c hc => isKeyChar_of_isSmallKeyChar (h c hc)
  have hmap : (key.toList.map fun c => if isKeyChar c then c.toLower else '_') =
      key.toList.map id := by
    refine List.map_congr_left fun c hc => ?_
    rw [if_pos (hkey c hc), toLower_of_isSmallKeyChar (h c hc), id]
  rw [sanitizeKey, trim_of_isKeyChar hkey, hmap, List.map_id, String.ofList_toList]

/-- **The keys that are used are the nameable ones among the sanitized.** -/
theorem usableKey?_eq_some_iff {raw key : String} :
    usableKey? raw = some key ↔ sanitizeKey raw = key ∧ Nameable key := by
  have hnameable : Nameable (sanitizeKey raw) ↔
      ¬ ((sanitizeKey raw).toList.all (· == '_') ||
        (Name.split (sanitizeKey raw)).group.isSome) = true := by
    rw [Bool.or_eq_true, not_or, Bool.not_eq_true, Bool.not_eq_true, List.all_eq_false,
      Option.isSome_eq_false_iff, Option.isNone_iff_eq_none]
    constructor
    · rintro ⟨-, ⟨c, hc, hne⟩, hgroup⟩
      exact ⟨⟨c, hc, by simpa using hne⟩, hgroup⟩
    · rintro ⟨⟨c, hc, hne⟩, hgroup⟩
      exact ⟨fun c hc => isSmallKeyChar_sanitizeKey hc, ⟨c, hc, by simpa using hne⟩, hgroup⟩
  rw [usableKey?]
  split
  · rename_i hbad
    constructor
    · simp
    · rintro ⟨rfl, h⟩
      exact absurd hbad (hnameable.1 h)
  · rename_i hgood
    constructor
    · intro h
      obtain rfl := Option.some.inj h
      exact ⟨rfl, hnameable.2 hgood⟩
    · rintro ⟨rfl, -⟩
      rfl

/-- A nameable key stays as it is. -/
theorem Nameable.usableKey?_eq {key : String} (h : Nameable key) : usableKey? key = some key :=
  usableKey?_eq_some_iff.2 ⟨sanitizeKey_of_isSmallKeyChar h.isSmallKeyChar, h⟩

end Bank

end Stencil
