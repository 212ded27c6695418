import Mathlib.Data.List.Nodup
import Mathlib.Data.List.Pairwise
import Stencil.Placeholder.Parsed
import Stencil.Proofs.Placeholder.OccurrenceKey
import Stencil.Proofs.Placeholder.Scan

/-!
# The tokens of a row

What the place, the number and the key of a token say about the row of pieces it comes from.

* `tokensOf` — the tokens of a row that begins at some place, behind some base keys;
* `locate_append` — the segments of a row that is put together from two;
* `exists_split_of_tokensOf` — each token is that of a slot of the row, and knows how many earlier
  ones have its base key;
* `pairwise_tokensOf` — tokens stand one behind another;
* `Parsed.find?_eq_some_iff` — the token that a key addresses is the one that is read from it;
* `Parsed.keys_address_tokens` — each token has a key of its own, and is addressed by it.
-/

namespace Stencil.Placeholder

open Text

/-! ## Names -/

namespace Name

theorem base_ne_empty {cs : List Char} (h : cs ≠ []) : (ofChars cs).base ≠ "" := by
  unfold ofChars
  split
  · split
    · rename_i hgroup
      simp only [Bool.and_eq_true, Bool.not_eq_true', List.isEmpty_eq_false_iff] at hgroup
      exact fun he => hgroup.1.1 (by simpa using congrArg String.toList he)
    · exact fun he => h (by simpa using congrArg String.toList he)
  · exact fun he => h (by simpa using congrArg String.toList he)

end Name

/-! ## The tokens of a row -/

/-- The base key of a slot. -/
def Slot.base (s : Slot) : String := (Name.ofChars s.name).base

namespace Piece

/-- The slot of a piece. -/
def slot? : Piece → Option Slot
  | literal _ => none
  | slot s => some s

/-- The base keys of the slots of a row, the last one first. -/
def bases (ps : List Piece) : List String := ((ps.filterMap slot?).map Slot.base).reverse

@[simp] theorem bases_nil : bases [] = [] := rfl

@[simp] theorem bases_literal (run : List Char) (ps : List Piece) :
    bases (.literal run :: ps) = bases ps := rfl

@[simp] theorem bases_slot (s : Slot) (ps : List Piece) :
    bases (.slot s :: ps) = bases ps ++ [s.base] := by
  simp [bases, slot?]

end Piece

/-- The token of a slot that stands at a place, behind slots with some base keys. -/
def Slot.token (s : Slot) (start : Nat) (seen : List String) : Token :=
  { slot := s, name := Name.ofChars s.name, occurrence := seen.count s.base, start }

@[simp] theorem Slot.baseKey_token (s : Slot) (start : Nat) (seen : List String) :
    (s.token start seen).baseKey = s.base := rfl

@[simp] theorem Slot.occurrence_token (s : Slot) (start : Nat) (seen : List String) :
    (s.token start seen).occurrence = seen.count s.base := rfl

/-- The tokens of a row that begins at a place, behind slots with some base keys. -/
def tokensOf (start : Nat) (seen : List String) (ps : List Piece) : List Token :=
  (Segment.locate start seen ps).filterMap Segment.token?

section TokensOf

variable {start : Nat} {seen : List String} {ps : List Piece} {t : Token} {pre post : List Token}

@[simp] theorem tokensOf_nil (start : Nat) (seen : List String) : tokensOf start seen [] = [] := rfl

@[simp] theorem tokensOf_literal (start : Nat) (seen : List String) (run : List Char)
    (ps : List Piece) :
    tokensOf start seen (.literal run :: ps) = tokensOf (start + byteLength run) seen ps := rfl

@[simp] theorem tokensOf_slot (start : Nat) (seen : List String) (s : Slot) (ps : List Piece) :
    tokensOf start seen (.slot s :: ps) =
      s.token start seen :: tokensOf (start + byteLength s.text) (s.base :: seen) ps := rfl

theorem locate_slot (start : Nat) (seen : List String) (s : Slot) (ps : List Piece) :
    Segment.locate start seen (.slot s :: ps) = .token (s.token start seen) ::
      Segment.locate (start + byteLength s.text) (s.base :: seen) ps := rfl

/-- The segments behind the first pieces of a row start where these end. -/
theorem locate_append (start : Nat) (seen : List String) (ps qs : List Piece) :
    Segment.locate start seen (ps ++ qs) = Segment.locate start seen ps ++
      Segment.locate (start + byteLength (Piece.flatten ps)) (Piece.bases ps ++ seen) qs := by
  induction ps generalizing start seen with
  | nil => simp [Segment.locate]
  | cons p ps ih =>
    cases p with
    | literal run => simp [Segment.locate, ih, Nat.add_assoc]
    | slot s => simp [locate_slot, ih, Nat.add_assoc]

theorem tokensOf_append (start : Nat) (seen : List String) (ps qs : List Piece) :
    tokensOf start seen (ps ++ qs) = tokensOf start seen ps ++
      tokensOf (start + byteLength (Piece.flatten ps)) (Piece.bases ps ++ seen) qs := by
  rw [tokensOf, locate_append, List.filterMap_append]
  rfl

/-- Each token is that of a slot of the row. -/
theorem exists_split_of_tokensOf (h : tokensOf start seen ps = pre ++ t :: post) :
    ∃ qs s rs, ps = qs ++ .slot s :: rs ∧ tokensOf start seen qs = pre ∧
      t = s.token (start + byteLength (Piece.flatten qs)) (Piece.bases qs ++ seen) := by
  induction ps generalizing start seen pre with
  | nil => simp at h
  | cons p ps ih =>
    cases p with
    | literal run =>
      obtain ⟨qs, s, rs, rfl, hpre, ht⟩ := ih h
      exact ⟨.literal run :: qs, s, rs, rfl, hpre, by simpa [Nat.add_assoc] using ht⟩
    | slot u =>
      rw [tokensOf_slot] at h
      cases pre with
      | nil =>
        obtain ⟨rfl, -⟩ := List.cons.inj h
        exact ⟨[], u, ps, rfl, rfl, rfl⟩
      | cons v pre =>
        rw [List.cons_append, List.cons.injEq] at h
        obtain ⟨rfl, h⟩ := h
        obtain ⟨qs, s, rs, rfl, rfl, ht⟩ := ih h
        exact ⟨.slot u :: qs, s, rs, rfl, rfl, by simpa [Nat.add_assoc] using ht⟩

theorem map_baseKey_tokensOf (start : Nat) (seen : List String) (ps : List Piece) :
    (tokensOf start seen ps).map Token.baseKey = (Piece.bases ps).reverse := by
  induction ps generalizing start seen with
  | nil => rfl
  | cons p ps ih =>
    cases p with
    | literal run => exact ih _ _
    | slot s =>
      rw [tokensOf_slot, List.map_cons, ih, Piece.bases_slot, List.reverse_append]
      rfl

theorem start_le_of_mem_tokensOf (h : t ∈ tokensOf start seen ps) : start ≤ t.start := by
  obtain ⟨pre, post, h⟩ := List.append_of_mem h
  obtain ⟨qs, s, rs, -, -, rfl⟩ := exists_split_of_tokensOf h
  exact Nat.le_add_right _ _

theorem count_le_of_mem_tokensOf (h : t ∈ tokensOf start seen ps) :
    seen.count t.baseKey ≤ t.occurrence := by
  obtain ⟨pre, post, h⟩ := List.append_of_mem h
  obtain ⟨qs, s, rs, -, -, rfl⟩ := exists_split_of_tokensOf h
  simp

/-- Tokens stand one behind another. -/
theorem pairwise_tokensOf (start : Nat) (seen : List String) (ps : List Piece) :
    (tokensOf start seen ps).Pairwise fun t u => t.span.stop ≤ u.span.start := by
  induction ps generalizing start seen with
  | nil => exact .nil
  | cons p ps ih =>
    cases p with
    | literal run => exact ih _ _
    | slot s => exact List.pairwise_cons.2 ⟨fun u hu => start_le_of_mem_tokensOf hu, ih _ _⟩

/-- The tokens of one base key have increasing numbers. -/
theorem pairwise_occurrence_tokensOf (start : Nat) (seen : List String) (ps : List Piece) :
    (tokensOf start seen ps).Pairwise fun t u =>
      t.baseKey = u.baseKey → t.occurrence < u.occurrence := by
  induction ps generalizing start seen with
  | nil => exact .nil
  | cons p ps ih =>
    cases p with
    | literal run => exact ih _ _
    | slot s =>
      rw [tokensOf_slot]
      refine List.pairwise_cons.2 ⟨fun u hu hbase => ?_, ih _ _⟩
      have hcount := count_le_of_mem_tokensOf hu
      rw [← hbase, Slot.baseKey_token, List.count_cons_self] at hcount
      rw [Slot.occurrence_token]
      omega

end TokensOf

/-! ## The tokens of a text -/

namespace Parsed

variable {text : String} {t u : Token} {pre post : List Token} {s : Slot}
  {before after : List Char}

theorem mem_tokens_of_segment {p : Parsed} (h : .token t ∈ p.segments) : t ∈ p.tokens.toList := by
  rw [p.tokens_toList]
  exact List.mem_filterMap.2 ⟨.token t, h, rfl⟩

theorem tokens_ofText (text : String) :
    (ofText text).tokens.toList = tokensOf 0 [] (scan text.toList) := rfl

/-- What is known of a token: it is that of a proper slot that stands at its place in the text, and
its number is that of the earlier tokens with its base key. -/
structure Located (text : String) (pre : List Token) (t : Token) : Prop where
  proper : t.slot.Proper
  stands : ∃ before after, text.toList = before ++ (t.slot.text ++ after) ∧
    t.start = byteLength before
  occurrence : t.occurrence = pre.countP (·.baseKey = t.baseKey)

theorem located (h : (ofText text).tokens.toList = pre ++ t :: post) : Located text pre t := by
  rw [tokens_ofText] at h
  obtain ⟨qs, s, rs, hscan, rfl, rfl⟩ := exists_split_of_tokensOf h
  have htext : text.toList = Piece.flatten qs ++ (s.text ++ Piece.flatten rs) := by
    rw [← flatten_scan text.toList, hscan]
    simp
  refine ⟨?_, ⟨_, _, htext, Nat.zero_add _⟩, ?_⟩
  · have hmem : .slot s ∈ scan text.toList := by simp [hscan]
    exact (row_scan _).proper_of_mem hmem
  · have hcount : (tokensOf 0 [] qs).countP (·.baseKey = s.base) =
        ((tokensOf 0 [] qs).map Token.baseKey).count s.base := by
      rw [List.count, List.countP_map]
      rfl
    refine Eq.trans ?_ hcount.symm
    rw [map_baseKey_tokensOf, List.count_reverse]
    exact congrArg (List.count s.base) (List.append_nil _)

theorem located_of_mem (h : t ∈ (ofText text).tokens.toList) : ∃ pre, Located text pre t := by
  obtain ⟨pre, post, h⟩ := List.append_of_mem h
  exact ⟨pre, located h⟩

/-- Every proper slot that stands in the text has a token. -/
theorem exists_token (hs : s.Proper) (htext : text.toList = before ++ (s.text ++ after)) :
    ∃ t ∈ (ofText text).tokens.toList, t.slot = s ∧ t.start = byteLength before := by
  have hflatten : Piece.flatten (scan text.toList) = before ++ (s.text ++ after) := by
    rw [flatten_scan, htext]
  obtain ⟨qs, rs, hscan, rfl, rfl⟩ := (row_scan _).exists_split hs hflatten
  rw [tokens_ofText, hscan, tokensOf_append, tokensOf_slot]
  exact ⟨_, List.mem_append_right _ List.mem_cons_self, rfl, Nat.zero_add _⟩

theorem baseKey_ne_empty (h : t ∈ (ofText text).tokens.toList) : t.baseKey ≠ "" := by
  obtain ⟨pre, hpre⟩ := located_of_mem h
  rw [Token.baseKey, t.name_eq]
  exact Name.base_ne_empty hpre.proper.name_ne_nil

theorem ne_empty_of_mem (h : t ∈ (ofText text).tokens.toList) : text ≠ "" := by
  rintro rfl
  obtain ⟨pre, hpre⟩ := located_of_mem h
  obtain ⟨before, after, htext, -⟩ := hpre.stands
  simp [Slot.text_eq] at htext

/-! ## Keys -/

/-- No key is that of two tokens. -/
theorem nodup_keys (text : String) : ((ofText text).tokens.toList.map Token.key).Nodup := by
  apply List.pairwise_map.2
  apply (pairwise_occurrence_tokensOf 0 [] (scan text.toList)).imp_of_mem
  intro t u ht hu hlt hkey
  obtain ⟨hbase, hoccurrence⟩ := occurrenceKey_inj (baseKey_ne_empty ht) (baseKey_ne_empty hu) hkey
  have := hlt hbase
  omega

/-- A key is that of one token only. -/
theorem eq_of_key_eq (ht : t ∈ (ofText text).tokens.toList) (hu : u ∈ (ofText text).tokens.toList)
    (h : t.key = u.key) : t = u :=
  List.inj_on_of_nodup_map (nodup_keys text) ht hu h

theorem splitOccurrence?_key (h : t ∈ (ofText text).tokens.toList) :
    splitOccurrence? t.key = some (t.baseKey, t.occurrence) :=
  splitOccurrence?_occurrenceKey (baseKey_ne_empty h) t.occurrence

theorem find?_eq (p : Parsed) {key base : String} {index : Nat}
    (h : splitOccurrence? key = some (base, index)) :
    p.find? key = p.tokens.toList.find? fun t => t.baseKey == base && t.occurrence == index := by
  rw [Array.find?_toList, find?, h]
  rfl

/-- **The token that a key addresses is the one whose base key and number are read from it.** -/
theorem find?_eq_some_iff {key : String} : (ofText text).find? key = some t ↔
    t ∈ (ofText text).tokens.toList ∧ splitOccurrence? key = some (t.baseKey, t.occurrence) := by
  have hsound {u : Token} (h : (ofText text).find? key = some u) :
      u ∈ (ofText text).tokens.toList ∧ splitOccurrence? key = some (u.baseKey, u.occurrence) := by
    obtain ⟨⟨base, index⟩, hsplit, -⟩ := Option.bind_eq_some_iff.1 h
    rw [find?_eq _ hsplit] at h
    have hfound := List.find?_some h
    simp only [Bool.and_eq_true, beq_iff_eq] at hfound
    obtain ⟨rfl, rfl⟩ := hfound
    exact ⟨List.mem_of_find?_eq_some h, hsplit⟩
  constructor
  · exact hsound
  · rintro ⟨ht, hsplit⟩
    cases hfind : (ofText text).find? key with
    | none =>
      rw [find?_eq _ hsplit, List.find?_eq_none] at hfind
      exact absurd (by simp) (hfind t ht)
    | some u =>
      obtain ⟨hu, hsplit'⟩ := hsound hfind
      obtain ⟨hbase, hoccurrence⟩ := Prod.mk.inj (Option.some.inj (hsplit.symm.trans hsplit'))
      rw [eq_of_key_eq ht hu (by rw [Token.key, Token.key, hbase, hoccurrence])]

/-- The key of a token addresses it. -/
theorem find?_key (h : t ∈ (ofText text).tokens.toList) : (ofText text).find? t.key = some t :=
  find?_eq_some_iff.2 ⟨h, splitOccurrence?_key h⟩

/-- **Each token has a key of its own, and is addressed by it**, whatever characters its base key
has. -/
theorem keys_address_tokens (text : String) :
    ((ofText text).tokens.toList.map Token.key).Nodup ∧
      ∀ t ∈ (ofText text).tokens.toList, (ofText text).find? t.key = some t :=
  ⟨nodup_keys text, fun _ => find?_key⟩

/-- Base keys with dashes, digits and signs. The second token with base key `a` has the key `a-1`,
which is what the first token has as its base key. -/
theorem keys_of_dashed_tokens :
    let mark (name : String) := "\x7b\x7b" ++ name ++ "\x7d\x7d"
    let p := ofText (mark "a-1" ++ mark "a" ++ mark "日-+" ++ mark "a_7")
    p.tokens.toList.map Token.key = ["a-1-0", "a-0", "日-+-0", "a-1"] ∧
      (p.tokens.toList.map Token.key).Nodup ∧
      ∃ t ∈ p.tokens.toList, t.key = "a-1" ∧ t.baseKey = "a" ∧ p.find? "a-1" = some t := by
  intro mark p
  obtain ⟨hnodup, hfind⟩ := keys_address_tokens (mark "a-1" ++ mark "a" ++ mark "日-+" ++ mark "a_7")
  obtain ⟨t, ht, hkey, hbase⟩ : ∃ t ∈ p.tokens.toList, t.key = "a-1" ∧ t.baseKey = "a" := by
    decide +kernel
  exact ⟨by decide +kernel, hnodup, t, ht, hkey, hbase, hkey ▸ hfind t ht⟩

end Parsed

end Stencil.Placeholder
