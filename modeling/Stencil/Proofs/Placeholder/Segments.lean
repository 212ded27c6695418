import Mathlib.Data.List.Chain
import Stencil.Proofs.Placeholder.Cursor
import Stencil.Proofs.Text.Boundary

/-!
# Segments of a text

The segments of a text lie one behind another and make up the whole of it, so that every place of
the text is in one of them, and each can be cut out at its span.

* `Tiles` — spans that follow one another without a gap;
* `tiles_locate`, `isChain_locate` — the segments of a row follow one another, and no two runs do;
* `standsAt_of_mem_locate` — a segment stands in the text at its span;
* `segments_partition` — all of it, with the place of the name inside each token.
-/

namespace Stencil.Placeholder

open Text

variable {text : String} {cs before : List Char} {ps : List Piece} {seen : List String}
  {s : Segment} {t : Token}

/-! ## Spans -/

/-- Spans follow one another from `start` to `stop`: none is empty, and each starts where the one
before it stops. -/
def Tiles (start : Nat) (spans : List Span) (stop : Nat) : Prop :=
  match spans with
  | [] => start = stop
  | span :: rest => span.start = start ∧ span.start < span.stop ∧ Tiles span.stop rest stop

/-- What stands at a span is the slice of the text there. -/
theorem StandsAt.slice?_eq {span : Span} (h : StandsAt text cs span) :
    slice? text span.start span.stop = some (String.ofList cs) := by
  obtain ⟨before, after, htext, rfl⟩ := h
  refine slice?_eq_some_iff.2 ⟨String.ofList before, String.ofList after, ?_, ?_, ?_⟩
  · rw [← String.ofList_append, ← String.ofList_append, List.append_assoc, ← htext,
      String.ofList_toList]
  · exact byteLength_eq_utf8ByteSize before
  · rw [← String.ofList_append, ← byteLength_eq_utf8ByteSize, byteLength_append]

/-! ## The segments of a row -/

theorem byteLength_pos (h : cs ≠ []) : 0 < byteLength cs := by
  obtain ⟨c, cs, rfl⟩ := List.exists_cons_of_ne_nil h
  exact Nat.lt_of_lt_of_le c.utf8Size_pos (byteLength_cons c cs ▸ Nat.le_add_right _ _)

/-- The segments of a row follow one another, from where the row begins to where it ends. -/
theorem tiles_locate (h : Row ps) (start : Nat) (seen : List String) :
    Tiles start ((Segment.locate start seen ps).map Segment.span)
      (start + byteLength (Piece.flatten ps)) := by
  induction h generalizing start seen with
  | nil => exact rfl
  | slot hs hps ih =>
    rw [locate_slot, List.map_cons, Piece.flatten_cons, byteLength_append, ← Nat.add_assoc]
    exact ⟨rfl, Token.start_lt_stop _, ih _ _⟩
  | literal hne hfree hnext hps ih =>
    rw [Segment.locate, List.map_cons, Piece.flatten_cons, byteLength_append, ← Nat.add_assoc]
    exact ⟨rfl, Nat.lt_add_of_pos_right (byteLength_pos hne), ih _ _⟩

/-- Of two segments next to each other, one is a token. -/
theorem isChain_locate (h : Row ps) (start : Nat) (seen : List String) :
    (Segment.locate start seen ps).IsChain fun a b => a.token?.isSome ∨ b.token?.isSome := by
  induction h generalizing start seen with
  | nil => exact .nil
  | slot hs hps ih =>
    rw [locate_slot]
    exact List.isChain_cons.2 ⟨fun b _ => .inl rfl, ih _ _⟩
  | literal hne hfree hnext hps ih =>
    rw [Segment.locate]
    refine List.isChain_cons.2 ⟨fun b hb => .inr ?_, ih _ _⟩
    rcases hps.cases_of_head? hnext with rfl | ⟨s, qs, rfl, -, -⟩
    · simp [Segment.locate] at hb
    · rw [locate_slot, List.head?_cons] at hb
      exact Option.some.inj hb ▸ rfl

/-- A segment of a row stands in the text at its span. -/
theorem standsAt_of_mem_locate (htext : text.toList = before ++ Piece.flatten ps)
    (h : s ∈ Segment.locate (byteLength before) seen ps) : StandsAt text s.text s.span := by
  induction ps generalizing before seen with
  | nil => simp [Segment.locate] at h
  | cons p ps ih =>
    rw [Piece.flatten_cons] at htext
    have hrest {seen : List String}
        (h : s ∈ Segment.locate (byteLength before + byteLength p.text) seen ps) :
        StandsAt text s.text s.span := by
      rw [← byteLength_append] at h
      exact ih (by rw [htext, List.append_assoc]) h
    cases p with
    | literal run =>
      rcases List.mem_cons.1 h with rfl | h
      · exact ⟨before, Piece.flatten ps, htext, rfl⟩
      · exact hrest h
    | slot u =>
      rw [locate_slot] at h
      rcases List.mem_cons.1 h with rfl | h
      · exact ⟨before, Piece.flatten ps, htext, rfl⟩
      · exact hrest h

/-- What is written in the segments of a row is the text of the row. -/
theorem flatMap_text_locate (start : Nat) (seen : List String) (ps : List Piece) :
    (Segment.locate start seen ps).flatMap Segment.text = Piece.flatten ps := by
  induction ps generalizing start seen with
  | nil => rfl
  | cons p ps ih =>
    cases p with
    | literal run => exact congrArg (run ++ ·) (ih _ _)
    | slot u => exact congrArg (u.text ++ ·) (ih _ _)

/-! ## Names -/

/-- The name of a token stands in the text at its span. -/
theorem Parsed.standsAt_nameSpan (ht : t ∈ (Parsed.ofText text).tokens.toList) :
    StandsAt text t.slot.name t.nameSpan := by
  obtain ⟨-, before, after, htext, hspan⟩ := exists_slot_iff.1 ⟨t, ht, rfl, rfl⟩
  have hstart : t.start = byteLength before := congrArg Span.start hspan
  have hbrace : ('\x7b').utf8Size = 1 := by decide
  refine ⟨before ++ ('\x7b' :: '\x7b' :: t.slot.lead), t.slot.trail ++ '\x7d' :: '\x7d' :: after,
    ?_, ?_⟩
  · rw [htext, Slot.text_eq, Slot.inner]
    simp
  · rw [Token.nameSpan, byteLength_append, byteLength_cons, byteLength_cons, hbrace, hstart]
    simp only [Span.mk.injEq]
    omega

/-- The name of a token lies between its double braces, and is not empty. -/
theorem Parsed.nameSpan_within (ht : t ∈ (Parsed.ofText text).tokens.toList) :
    t.span.start + 2 ≤ t.nameSpan.start ∧ t.nameSpan.start < t.nameSpan.stop ∧
      t.nameSpan.stop ≤ t.span.stop - 2 := by
  obtain ⟨pre, hlocated⟩ := Parsed.located_of_mem ht
  have hname := byteLength_pos hlocated.proper.name_ne_nil
  have hinner : byteLength t.slot.inner =
      byteLength t.slot.lead + byteLength t.slot.name + byteLength t.slot.trail := by
    rw [Slot.inner, byteLength_append, byteLength_append]
  rw [Token.span_stop, hinner]
  simp only [Token.nameSpan, Token.span]
  omega

/-! ## The segments of a text -/

/-- **The segments of a text make it up.** They follow one another from its start to its end, on
character boundaries, and what they hold is the slice of the text at their span. No two literal
runs stand next to each other, and the other segments are the tokens in their order. The name of a
token is the slice at its own span, which lies between the double braces. -/
theorem segments_partition (text : String) :
    let p := Parsed.ofText text
    Tiles 0 (p.segments.map Segment.span) text.utf8ByteSize ∧
      (∀ s ∈ p.segments, slice? text s.span.start s.span.stop = some (String.ofList s.text)) ∧
      String.join (p.segments.map fun s => String.ofList s.text) = text ∧
      p.segments.IsChain (fun a b => a.token?.isSome ∨ b.token?.isSome) ∧
      p.segments.filterMap Segment.token? = p.tokens.toList ∧
      ∀ t ∈ p.tokens.toList,
        t.span.start + 2 ≤ t.nameSpan.start ∧ t.nameSpan.start < t.nameSpan.stop ∧
          t.nameSpan.stop ≤ t.span.stop - 2 ∧
          slice? text t.nameSpan.start t.nameSpan.stop = some t.fullKey := by
  intro p
  have hrow := row_scan text.toList
  have hflatten := flatten_scan text.toList
  refine ⟨?_, fun s hs => ?_, ?_, isChain_locate hrow 0 [], p.tokens_toList.symm, fun t ht => ?_⟩
  · have htiles := tiles_locate hrow 0 []
    rwa [hflatten, Nat.zero_add, byteLength_toList] at htiles
  · have htext : text.toList = [] ++ Piece.flatten (scan text.toList) := hflatten.symm
    exact (standsAt_of_mem_locate htext hs).slice?_eq
  · apply String.toList_inj.1
    rw [String.toList_join, List.flatMap_map]
    simp only [String.toList_ofList]
    exact (flatMap_text_locate 0 [] _).trans hflatten
  · obtain ⟨hstart, hlt, hstop⟩ := Parsed.nameSpan_within ht
    exact ⟨hstart, hlt, hstop, (Parsed.standsAt_nameSpan ht).slice?_eq⟩

/-- A brace too many, which is literal, then two tokens without anything between them. White space
of three bytes stands before the second name. -/
theorem segments_of_brace_run :
    let mark (name : String) := String.ofList (braced name.toList)
    let text := "é\x7b" ++ mark "a" ++ mark "\u3000b_1 "
    let p := Parsed.ofText text
    p.segments.map Segment.span = [⟨0, 3⟩, ⟨3, 8⟩, ⟨8, 19⟩] ∧
      Tiles 0 [⟨0, 3⟩, ⟨3, 8⟩, ⟨8, 19⟩] text.utf8ByteSize ∧
      (∃ s ∈ p.segments, s.span = ⟨8, 19⟩ ∧ slice? text 8 19 = some (mark "\u3000b_1 ")) ∧
      ∃ t ∈ p.tokens.toList, t.nameSpan = ⟨13, 16⟩ ∧ slice? text 13 16 = some "b_1" := by
  intro mark text p
  obtain ⟨htiles, hslices, -, -, -, htokens⟩ := segments_partition text
  have hspans : p.segments.map Segment.span = [⟨0, 3⟩, ⟨3, 8⟩, ⟨8, 19⟩] := by decide +kernel
  obtain ⟨s, hs, hspan, hstext⟩ : ∃ s ∈ p.segments, s.span = ⟨8, 19⟩ ∧
      String.ofList s.text = mark "\u3000b_1 " := by decide +kernel
  obtain ⟨t, ht, hname, hkey⟩ : ∃ t ∈ p.tokens.toList, t.nameSpan = ⟨13, 16⟩ ∧
      t.fullKey = "b_1" := by decide +kernel
  have hslice := hslices s hs
  have hnameSlice := (htokens t ht).2.2.2
  rw [hspan, hstext] at hslice
  rw [hname, hkey] at hnameSlice
  exact ⟨hspans, hspans ▸ htiles, ⟨s, hs, hspan, hslice⟩, t, ht, hname, hnameSlice⟩

end Stencil.Placeholder
