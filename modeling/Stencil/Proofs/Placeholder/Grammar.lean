import Stencil.Proofs.Placeholder.Tokens

/-!
# The grammar of placeholders

A placeholder is two opening braces, a name with white space around it, and two closing braces.
Wherever such a text stands, and nowhere else, there is a token.

* `IsPlaceholderAt` — a placeholder stands in a text at a span;
* `exists_slot_iff`, `exists_token_iff` — the spans of tokens are those at which a placeholder
  stands;
* `IsPlaceholderAt.disjoint` — placeholders do not overlap;
* `tokens_are_placeholders` — all of it, with what each token knows of its placeholder.
-/

namespace Stencil.Placeholder

open Text

/-! ## Placeholders as they are written -/

/-- Some characters stand in a text at a span, counted in bytes. -/
def StandsAt (text : String) (cs : List Char) (span : Span) : Prop :=
  ∃ before after, text.toList = before ++ (cs ++ after) ∧
    span = ⟨byteLength before, byteLength before + byteLength cs⟩

/-- What may stand between double braces: no brace and no line break, and not white space only. -/
structure IsRawName (raw : List Char) : Prop where
  free : ∀ c ∈ raw, c ≠ '\x7b' ∧ c ≠ '\x7d' ∧ c ≠ '\n'
  notBlank : ¬ isBlank (String.ofList raw)

/-- Characters between double braces. -/
def braced (raw : List Char) : List Char := ['\x7b', '\x7b'] ++ raw ++ ['\x7d', '\x7d']

/-- A placeholder stands in a text at a span. -/
def IsPlaceholderAt (text : String) (span : Span) : Prop :=
  ∃ raw, IsRawName raw ∧ StandsAt text (braced raw) span

theorem isInner_iff {c : Char} : Slot.isInner c ↔ c ≠ '\x7b' ∧ c ≠ '\x7d' ∧ c ≠ '\n' := by
  simp [Slot.isInner, and_assoc]

theorem isRawName_iff {raw : List Char} :
    IsRawName raw ↔ (∀ c ∈ raw, Slot.isInner c) ∧ ∃ c ∈ raw, ¬ isSpace c := by
  have hblank : ¬ isBlank (String.ofList raw) ↔ ∃ c ∈ raw, ¬ isSpace c := by
    simp [isBlank]
  constructor
  · intro h
    exact ⟨fun c hc => isInner_iff.2 (h.free c hc), hblank.1 h.notBlank⟩
  · intro h
    exact ⟨fun c hc => isInner_iff.1 (h.1 c hc), hblank.2 h.2⟩

theorem Slot.Proper.isRawName {s : Slot} (hs : s.Proper) : IsRawName s.inner :=
  isRawName_iff.2 ⟨hs.isInner, hs.notBlank⟩

theorem IsRawName.proper {raw : List Char} (h : IsRawName raw) : (Slot.ofInner raw).Proper :=
  Slot.proper_ofInner (isRawName_iff.1 h).1 (isRawName_iff.1 h).2

theorem text_ofInner (raw : List Char) : (Slot.ofInner raw).text = braced raw := by
  rw [Slot.text, Slot.inner_ofInner, braced]

theorem Token.start_lt_stop (t : Token) : t.span.start < t.span.stop := by
  have hbrace : ('\x7b').utf8Size = 1 := by decide
  simp only [Token.span, Slot.text_eq, byteLength_cons, hbrace]
  omega

/-! ## Tokens and placeholders -/

variable {text : String}

theorem StandsAt.stop_le {cs : List Char} {span : Span} (h : StandsAt text cs span) :
    span.stop ≤ text.utf8ByteSize := by
  obtain ⟨before, after, htext, rfl⟩ := h
  rw [← byteLength_toList, htext, byteLength_append, byteLength_append]
  show _ + _ ≤ _
  omega

/-- The slots of tokens are the proper ones that stand in the text, at the spans of the tokens. -/
theorem exists_slot_iff {s : Slot} {span : Span} :
    (∃ t ∈ (Parsed.ofText text).tokens.toList, t.slot = s ∧ t.span = span) ↔
      s.Proper ∧ StandsAt text s.text span := by
  constructor
  · rintro ⟨t, ht, rfl, rfl⟩
    obtain ⟨pre, hpre⟩ := Parsed.located_of_mem ht
    obtain ⟨before, after, htext, hstart⟩ := hpre.stands
    exact ⟨hpre.proper, before, after, htext, by rw [Token.span, hstart]⟩
  · rintro ⟨hs, before, after, htext, rfl⟩
    obtain ⟨t, ht, hslot, hstart⟩ := Parsed.exists_token hs htext
    exact ⟨t, ht, hslot, by rw [Token.span, hslot, hstart]⟩

/-- **The spans of tokens are those at which a placeholder stands.** -/
theorem exists_token_iff {span : Span} :
    (∃ t ∈ (Parsed.ofText text).tokens.toList, t.span = span) ↔ IsPlaceholderAt text span := by
  constructor
  · rintro ⟨t, ht, rfl⟩
    obtain ⟨hs, hstands⟩ := exists_slot_iff.1 ⟨t, ht, rfl, rfl⟩
    exact ⟨t.slot.inner, hs.isRawName, hstands⟩
  · rintro ⟨raw, hraw, hstands⟩
    rw [← text_ofInner] at hstands
    obtain ⟨t, ht, -, hspan⟩ := exists_slot_iff.2 ⟨hraw.proper, hstands⟩
    exact ⟨t, ht, hspan⟩

/-- Placeholders at different spans do not overlap. -/
theorem IsPlaceholderAt.disjoint {a b : Span} (ha : IsPlaceholderAt text a)
    (hb : IsPlaceholderAt text b) (hne : a ≠ b) : a.stop ≤ b.start ∨ b.stop ≤ a.start := by
  obtain ⟨t, ht, rfl⟩ := exists_token_iff.2 ha
  obtain ⟨u, hu, rfl⟩ := exists_token_iff.2 hb
  have hsymm : Std.Symm fun t u : Token =>
      t.span.stop ≤ u.span.start ∨ u.span.stop ≤ t.span.start := ⟨fun _ _ => Or.symm⟩
  have hpairwise := (pairwise_tokensOf 0 [] (scan text.toList)).imp (S := fun t u : Token =>
    t.span.stop ≤ u.span.start ∨ u.span.stop ≤ t.span.start) Or.inl
  exact hpairwise.forall ht hu fun heq => hne (congrArg Token.span heq)

/-- The name of a proper slot is what stands between its braces without the white space at the two
ends. -/
theorem Slot.Proper.trim_inner {s : Slot} (hs : s.Proper) :
    trim (String.ofList s.inner) = String.ofList s.name ∧ ∀ c ∈ s.lead ++ s.trail, isSpace c := by
  have hparts := hs.parts
  constructor
  · rw [trim, String.toList_ofList]
    exact congrArg (fun s => String.ofList s.name) hparts
  · rw [← hparts]
    intro c hc
    rcases List.mem_append.1 hc with hc | hc
    · exact List.all_eq_true.1 List.all_takeWhile c hc
    · exact List.all_eq_true.1 List.all_takeWhile c (List.mem_reverse.1 hc)

/-- **Tokens are exactly the placeholders of a text.** They stand one behind another, at the spans
at which a placeholder stands, and placeholders do not overlap. The name of a token is what stands
between the braces without the white space around it, and is split into the base key and the group;
its number is that of the earlier tokens with its base key. -/
theorem tokens_are_placeholders (text : String) :
    let tokens := (Parsed.ofText text).tokens.toList
    tokens.Pairwise (fun t u => t.span.start < t.span.stop ∧ t.span.stop ≤ u.span.start) ∧
      (∀ span, (∃ t ∈ tokens, t.span = span) ↔ IsPlaceholderAt text span) ∧
      (∀ a b, IsPlaceholderAt text a → IsPlaceholderAt text b → a ≠ b →
        a.stop ≤ b.start ∨ b.stop ≤ a.start) ∧
      ∀ pre t post, tokens = pre ++ t :: post →
        (∃ lead trail, (∀ c ∈ lead ++ trail, isSpace c) ∧
          IsRawName (lead ++ t.fullKey.toList ++ trail) ∧
          StandsAt text (braced (lead ++ t.fullKey.toList ++ trail)) t.span ∧
          t.nameSpan.start = t.span.start + byteLength (['\x7b', '\x7b'] ++ lead) ∧
          t.nameSpan.stop = t.nameSpan.start + byteLength t.fullKey.toList ∧
          t.fullKey = trim (String.ofList (lead ++ t.fullKey.toList ++ trail))) ∧
        (⟨t.baseKey, t.group?⟩ : Name) = Name.split t.fullKey ∧
        t.occurrence = pre.countP (·.baseKey = t.baseKey) := by
  intro tokens
  refine ⟨?_, fun span => exists_token_iff, fun a b => IsPlaceholderAt.disjoint, ?_⟩
  · exact (pairwise_tokensOf 0 [] (scan text.toList)).imp fun h => ⟨Token.start_lt_stop _, h⟩
  · intro pre t post htokens
    have hlocated := Parsed.located htokens
    obtain ⟨before, after, htext, hstart⟩ := hlocated.stands
    obtain ⟨htrim, hspace⟩ := hlocated.proper.trim_inner
    have hkey : t.fullKey.toList = t.slot.name := String.toList_ofList
    have hinner : t.slot.lead ++ t.fullKey.toList ++ t.slot.trail = t.slot.inner := by
      rw [hkey, Slot.inner]
    have hname : (⟨t.baseKey, t.group?⟩ : Name) = Name.split t.fullKey := by
      rw [Name.split, hkey, ← t.name_eq]
      rfl
    refine ⟨⟨t.slot.lead, t.slot.trail, hspace, ?_, ?_, ?_, ?_, ?_⟩, hname, hlocated.occurrence⟩
    · rw [hinner]
      exact hlocated.proper.isRawName
    · rw [hinner]
      exact ⟨before, after, htext, by rw [Token.span, hstart]; rfl⟩
    · have hbrace : ('\x7b').utf8Size = 1 := by decide
      simp only [Token.nameSpan, Token.span, List.cons_append, List.nil_append, byteLength_cons,
        hbrace]
      omega
    · rw [hkey]
      rfl
    · rw [hinner, htrim]
      rfl

/-- In a text with a brace too many before the first placeholder, and nothing but white space in
what would be the second one, there are two placeholders and two tokens. -/
theorem placeholders_of_brace_run :
    let text := "\x7b\x7b\x7ba\x7d\x7d\x7b\x7b \x7d\x7d\x7b\x7b a_1 \x7d\x7d"
    let tokens := (Parsed.ofText text).tokens.toList
    tokens.map (·.span) = [⟨1, 6⟩, ⟨11, 20⟩] ∧ IsPlaceholderAt text ⟨1, 6⟩ ∧
      IsPlaceholderAt text ⟨11, 20⟩ ∧ ¬ IsPlaceholderAt text ⟨0, 6⟩ ∧
      ∀ t, tokens.getLast? = some t →
        (⟨t.baseKey, t.group?⟩ : Name) = Name.split t.fullKey ∧ t.occurrence = 1 := by
  intro text tokens
  obtain ⟨-, hspans, -, htokens⟩ := tokens_are_placeholders text
  refine ⟨by decide +kernel, (hspans _).1 (by decide +kernel), (hspans _).1 (by decide +kernel),
    fun h => absurd ((hspans _).2 h) (by decide +kernel), fun t ht => ?_⟩
  obtain ⟨pre, hsplit⟩ := List.getLast?_eq_some_iff.1 ht
  obtain ⟨-, hname, hoccurrence⟩ := htokens pre t [] hsplit
  have hbases : pre.map (·.baseKey) ++ [t.baseKey] = ["a"] ++ ["a"] := by
    have htwo : tokens.map (·.baseKey) = ["a"] ++ ["a"] := by decide +kernel
    rw [← htwo, hsplit, List.map_append, List.map_singleton]
  obtain ⟨hpre, hbase⟩ := List.append_inj' hbases rfl
  refine ⟨hname, hoccurrence.trans ?_⟩
  have hcount : (pre.map (·.baseKey)).count "a" = 1 := by rw [hpre]; rfl
  rw [List.singleton_inj.1 hbase, ← hcount, List.count, List.countP_map]
  rfl

end Stencil.Placeholder
