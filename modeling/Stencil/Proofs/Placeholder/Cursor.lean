import Stencil.Proofs.Placeholder.Grammar

/-!
# The token under a cursor

A cursor is inside a token when it stands between its double braces, or right at them. The insides
of tokens lie apart from each other, so there is at most one such token, and a binary search over
their ends finds it.

* `partitionPoint_spec` — a binary search ends where a predicate stops to hold;
* `Parsed.pairwise_cursorSpan` — the insides of tokens lie one behind another, so that a cursor is
  inside of one only: `Parsed.eq_of_touches`;
* `Parsed.tokenAt?_eq_some_iff`, `Parsed.tokenAt?_eq_none_iff` — the token that is found is the one
  the cursor is inside of;
* `Parsed.tokenAt?_eq_scan` — it is the one that a scan of all tokens finds.
-/

namespace Stencil.Placeholder

open Text

/-! ## Binary search -/

/-- **A binary search ends where the predicate stops to hold.** The bounds on both sides are the
invariant: everything below `low` satisfies the predicate, and nothing from `high` on does. -/
theorem Parsed.partitionPoint_spec {α : Type} {xs : Array α} {p : α → Bool} {low high : Nat}
    (hle : low ≤ high) (hhigh : high ≤ xs.size)
    (hmono : ∀ (i j : Nat) (x y : α), i < j → xs[i]? = some x → xs[j]? = some y → p y → p x)
    (hbelow : ∀ (i : Nat) (x : α), i < low → xs[i]? = some x → p x)
    (habove : ∀ (i : Nat) (x : α), high ≤ i → xs[i]? = some x → ¬ p x) {i : Nat} {x : α}
    (hx : xs[i]? = some x) : i < partitionPoint xs p low high ↔ p x := by
  fun_induction partitionPoint xs p low high with
  | case1 low high hlt mid y hy hp ih =>
    refine ih (by omega) hhigh (fun j z hj hz => ?_) habove
    rcases Nat.lt_or_ge j mid with hjmid | hjmid
    · exact hmono j mid z y hjmid hz hy hp
    · obtain rfl : j = mid := by omega
      exact Option.some.inj (hy.symm.trans hz) ▸ hp
  | case2 low high hlt mid y hy hp ih =>
    refine ih (by omega) (by omega) hbelow fun j z hj hz hpz => hp ?_
    rcases Nat.lt_or_ge mid j with hmidj | hmidj
    · exact hmono mid j y z hmidj hy hz hpz
    · obtain rfl : j = mid := by omega
      exact Option.some.inj (hz.symm.trans hy) ▸ hpz
  | case3 low high hlt mid hnone =>
    rw [Array.getElem?_eq_none_iff] at hnone
    omega
  | case4 low high hnot =>
    constructor
    · intro hi
      exact hbelow i x hi hx
    · intro hpx
      by_contra hi
      exact habove i x (by omega) hx hpx

/-! ## The insides of tokens -/

theorem Slot.byteLength_text (s : Slot) : byteLength s.text = byteLength s.inner + 4 := by
  have hopen : ('\x7b').utf8Size = 1 := by decide
  have hclose : ('\x7d').utf8Size = 1 := by decide
  simp only [text_eq, byteLength_cons, byteLength_append, byteLength_nil, hopen, hclose]
  omega

namespace Token

theorem span_stop (t : Token) : t.span.stop = t.start + (byteLength t.slot.inner + 4) := by
  rw [← Slot.byteLength_text]
  rfl

/-- The inside of a token holds what stands between its braces. -/
theorem cursorSpan_eq (t : Token) :
    t.cursorSpan = ⟨t.start + 2, t.start + 2 + byteLength t.slot.inner⟩ := by
  have hstop : t.span.stop - 2 = t.start + 2 + byteLength t.slot.inner := by
    rw [span_stop]
    omega
  rw [cursorSpan, hstop]
  rfl

theorem cursorSpan_start_le (t : Token) : t.cursorSpan.start ≤ t.cursorSpan.stop := by
  rw [cursorSpan_eq]
  exact Nat.le_add_right _ _

theorem touches_iff {t : Token} {cursor : Nat} : t.cursorSpan.touches cursor ↔
    t.start + 2 ≤ cursor ∧ cursor ≤ t.start + 2 + byteLength t.slot.inner := by
  rw [cursorSpan_eq, Span.touches, Bool.and_eq_true, decide_eq_true_eq, decide_eq_true_eq]

end Token

namespace Parsed

variable {text : String} {cursor : Nat} {t u : Token}

/-- The insides of tokens lie one behind another. -/
theorem pairwise_cursorSpan (text : String) : (ofText text).tokens.toList.Pairwise fun t u =>
    t.cursorSpan.stop < u.cursorSpan.start := by
  refine (pairwise_tokensOf 0 [] (scan text.toList)).imp fun {t u} hstop => ?_
  change t.span.stop ≤ u.start at hstop
  rw [Token.span_stop] at hstop
  rw [t.cursorSpan_eq, u.cursorSpan_eq]
  change t.start + 2 + byteLength t.slot.inner < u.start + 2
  omega

/-- A cursor is inside of one token only. -/
theorem eq_of_touches (ht : t ∈ (ofText text).tokens.toList) (hu : u ∈ (ofText text).tokens.toList)
    (htcursor : t.cursorSpan.touches cursor) (hucursor : u.cursorSpan.touches cursor) : t = u := by
  by_contra hne
  have hsymm : Std.Symm fun t u : Token =>
      t.cursorSpan.stop < u.cursorSpan.start ∨ u.cursorSpan.stop < t.cursorSpan.start :=
    ⟨fun _ _ => Or.symm⟩
  have hpairwise := (pairwise_cursorSpan text).imp (S := fun t u : Token =>
    t.cursorSpan.stop < u.cursorSpan.start ∨ u.cursorSpan.stop < t.cursorSpan.start) Or.inl
  simp only [Span.touches, Bool.and_eq_true, decide_eq_true_eq] at htcursor hucursor
  have := hpairwise.forall ht hu hne
  omega

/-! ## The token that is found -/

theorem cursorSpan_lt {i j : Nat} (hij : i < j) (ht : (ofText text).tokens[i]? = some t)
    (hu : (ofText text).tokens[j]? = some u) : t.cursorSpan.stop < u.cursorSpan.start := by
  rw [← Array.getElem?_toList] at ht hu
  obtain ⟨hi, rfl⟩ := List.getElem?_eq_some_iff.1 ht
  obtain ⟨hj, rfl⟩ := List.getElem?_eq_some_iff.1 hu
  exact List.pairwise_iff_getElem.1 (pairwise_cursorSpan text) i j hi hj hij

/-- The tokens before the place where the search ends are those that end before the cursor. -/
theorem lt_partitionPoint_iff (cursor : Nat) {i : Nat} (ht : (ofText text).tokens[i]? = some t) :
    i < partitionPoint (ofText text).tokens (·.cursorSpan.stop < cursor) 0
        (ofText text).tokens.size ↔ t.cursorSpan.stop < cursor := by
  refine (partitionPoint_spec (Nat.zero_le _) le_rfl (fun i j u v hij hu hv hstop => ?_)
    (by omega) (fun i u hi hu => ?_) ht).trans decide_eq_true_iff
  · have hapart := cursorSpan_lt hij hu hv
    have hle := v.cursorSpan_start_le
    simp only [decide_eq_true_eq] at hstop ⊢
    omega
  · rw [Array.getElem?_eq_none hi] at hu
    simp at hu

theorem mem_of_tokenAt? {p : Parsed} (h : p.tokenAt? cursor = some t) : t ∈ p.tokens.toList := by
  obtain ⟨htoken, -⟩ := Option.filter_eq_some_iff.1 h
  exact Array.mem_toList_iff.2 (Array.mem_of_getElem? htoken)

/-- **The token that is found under a cursor is the one the cursor is inside of.** -/
theorem tokenAt?_eq_some_iff : (ofText text).tokenAt? cursor = some t ↔
    t ∈ (ofText text).tokens.toList ∧ t.cursorSpan.touches cursor := by
  constructor
  · intro h
    exact ⟨mem_of_tokenAt? h, (Option.filter_eq_some_iff.1 h).2⟩
  · rintro ⟨ht, htouches⟩
    refine Option.filter_eq_some_iff.2 ⟨?_, htouches⟩
    obtain ⟨i, hi⟩ := List.mem_iff_getElem?.1 ht
    rw [Array.getElem?_toList] at hi
    simp only [Span.touches, Bool.and_eq_true, decide_eq_true_eq] at htouches
    have hnot := mt (lt_partitionPoint_iff cursor hi).1 (by omega)
    -- a token at which the search stopped before `t` would end before the cursor
    rcases Nat.lt_or_eq_of_le (Nat.not_lt.1 hnot) with hlt | heq
    · have hsize := (Array.getElem?_eq_some_iff.1 hi).1
      have hfound := Array.getElem?_eq_getElem (hlt.trans hsize)
      have hstop := mt (lt_partitionPoint_iff cursor hfound).2 (Nat.lt_irrefl _)
      have hapart := cursorSpan_lt hlt hfound hi
      omega
    · rw [heq, hi]

theorem tokenAt?_eq_none_iff : (ofText text).tokenAt? cursor = none ↔
    ∀ t ∈ (ofText text).tokens.toList, ¬ t.cursorSpan.touches cursor := by
  simp only [Option.eq_none_iff_forall_ne_some, ne_eq, tokenAt?_eq_some_iff, not_and]

theorem length_filter_touches_le (text : String) (cursor : Nat) :
    ((ofText text).tokens.toList.filter (·.cursorSpan.touches cursor)).length ≤ 1 := by
  have hnodup := (nodup_keys text).of_map.filter (·.cursorSpan.touches cursor)
  cases h : (ofText text).tokens.toList.filter (·.cursorSpan.touches cursor) with
  | nil => exact Nat.zero_le 1
  | cons t rest =>
    have hmem {u : Token} (hu : u ∈ t :: rest) := List.mem_filter.1 (h ▸ hu)
    rw [h, List.nodup_cons] at hnodup
    cases rest with
    | nil => exact le_rfl
    | cons u rest =>
      obtain ⟨ht, htcursor⟩ := hmem (u := t) (by simp)
      obtain ⟨hu, hucursor⟩ := hmem (u := u) (by simp)
      exact absurd (eq_of_touches ht hu htcursor hucursor ▸ List.mem_cons_self) hnodup.1

/-- **The binary search finds what a scan of all tokens does.** At most one token has the cursor
between its double braces, and that one is found. -/
theorem tokenAt?_eq_scan (text : String) (cursor : Nat) :
    let inside := (ofText text).tokens.toList.filter fun t =>
      t.span.start + 2 ≤ cursor ∧ cursor ≤ t.span.stop - 2
    inside.length ≤ 1 ∧ (ofText text).tokenAt? cursor = inside.head? := by
  intro inside
  have hinside : inside = (ofText text).tokens.toList.filter (·.cursorSpan.touches cursor) :=
    List.filter_congr fun t _ => Bool.decide_and ..
  have hlength : inside.length ≤ 1 := hinside ▸ length_filter_touches_le text cursor
  refine ⟨hlength, ?_⟩
  cases hfound : (ofText text).tokenAt? cursor with
  | none =>
    have hnil : inside = [] := by
      rw [hinside]
      exact List.filter_eq_nil_iff.2 (tokenAt?_eq_none_iff.1 hfound)
    rw [hnil, List.head?_nil]
  | some t =>
    have ht : t ∈ inside := by
      rw [hinside]
      exact List.mem_filter.2 (tokenAt?_eq_some_iff.1 hfound)
    obtain ⟨u, hu⟩ := List.length_eq_one_iff.1
      (Nat.le_antisymm hlength (List.length_pos_of_mem ht))
    rw [hu] at ht ⊢
    rw [List.mem_singleton.1 ht, List.head?_singleton]

end Parsed

end Stencil.Placeholder
