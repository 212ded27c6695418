import Mathlib.Data.List.Sort
import Stencil.Proofs.Placeholder.Substitution
import Stencil.Proofs.Text.Boundary

/-!
# Texts with a placeholder put in

A placeholder is put between two parts of a text, and the text is read again. A token of the old
text is still there if it lies in one of the parts; one that was cut through is gone, and what is
left of it does not make up a new token.

* `scan_append_slot` — what stands before a slot and what follows it are read on their own;
* `Parsed.sites_of_part` — the tokens of a part of a text are those of the text that lie in it;
* `Parsed.fullKeys_of_insertion` — the tokens after a placeholder has been put in.
-/

namespace Stencil.Placeholder

open Text

/-! ## Slots between two texts -/

section Slots

variable {ps qs : List Piece} {s : Slot}

theorem Row.append_slot (hps : Row ps) (hs : s.Proper) (hqs : Row qs) :
    Row (ps ++ .slot s :: qs) := by
  induction hps with
  | nil => exact .slot hs hqs
  | slot ht _ ih => exact .slot ht ih
  | @literal run ps hne hfree hnext _ ih =>
    refine .literal hne hfree (fun next hhead => ?_) ih
    cases ps with
    | nil => simp at hhead
    | cons p ps => exact hnext next hhead

/-- **What stands before a slot and what follows it are read on their own.** -/
theorem scan_append_slot (hs : s.Proper) (cs ds : List Char) :
    scan (cs ++ (s.text ++ ds)) = scan cs ++ .slot s :: scan ds := by
  have hrow := (row_scan cs).append_slot hs (row_scan ds)
  have hflatten : Piece.flatten (scan cs ++ .slot s :: scan ds) = cs ++ (s.text ++ ds) := by simp
  rw [← hflatten, hrow.scan_flatten]

theorem map_slot_tokensOf (start : Nat) (seen : List String) (ps : List Piece) :
    (tokensOf start seen ps).map Token.slot = ps.filterMap Piece.slot? := by
  induction ps generalizing start seen with
  | nil => rfl
  | cons p ps ih =>
    cases p with
    | literal run => exact ih _ _
    | slot s => exact congrArg (s :: ·) (ih _ _)

theorem Slot.text_bare (name : List Char) : Slot.text ⟨[], name, []⟩ = braced name := by
  simp [Slot.text, Slot.inner, braced]

/-- A name that is read as it is written may stand alone between double braces. -/
theorem IsTrimmedName.proper {name : String} (h : IsTrimmedName name) :
    Slot.Proper ⟨[], name.toList, []⟩ :=
  Slot.ofInner_bare h.isRawName h.trim_eq ▸ h.isRawName.proper

end Slots

/-! ## Parts of a text -/

variable {text pre mid post : String} {n : Nat} {cs : List Char} {s : Slot}

/-- What stands in a part of a text stands in the text as well, and it ends in the part. -/
theorem standsAt_part_iff : StandsAt mid cs ⟨n, n + byteLength cs⟩ ↔
    StandsAt (pre ++ mid ++ post) cs
        ⟨pre.utf8ByteSize + n, pre.utf8ByteSize + n + byteLength cs⟩ ∧
      n + byteLength cs ≤ mid.utf8ByteSize := by
  have hwhole : (pre ++ mid ++ post).toList = pre.toList ++ (mid.toList ++ post.toList) := by
    rw [String.toList_append, String.toList_append, List.append_assoc]
  rw [← byteLength_toList pre, ← byteLength_toList mid]
  constructor
  · rintro ⟨before, after, hmid, hspan⟩
    obtain ⟨rfl, -⟩ := Span.mk.inj hspan
    refine ⟨⟨pre.toList ++ before, after ++ post.toList, ?_, ?_⟩, ?_⟩
    · rw [hwhole, hmid]
      simp
    · rw [byteLength_append]
    · rw [hmid]
      simp only [byteLength_append]
      omega
  · rintro ⟨⟨before, after, htext, hspan⟩, hstop⟩
    obtain ⟨hstart, -⟩ := Span.mk.inj hspan
    obtain ⟨w, rfl, hw⟩ := prefix_of_byteLength_le (hwhole.symm.trans htext) (by omega)
    rw [byteLength_append, Nat.add_left_cancel_iff] at hstart
    subst hstart
    rw [← byteLength_append] at hstop
    rw [← List.append_assoc] at hw
    obtain ⟨v, hmid, -⟩ := prefix_of_byteLength_le hw.symm hstop
    exact ⟨w, v, hmid.trans (List.append_assoc w cs v), rfl⟩

namespace Parsed

/-- The places and the slots of the tokens. -/
def sites (p : Parsed) : List (Nat × Slot) := p.tokens.toList.map fun t => (t.start, t.slot)

theorem mem_sites_iff : (n, s) ∈ (ofText text).sites ↔
    s.Proper ∧ StandsAt text s.text ⟨n, n + byteLength s.text⟩ := by
  rw [sites, List.mem_map, ← exists_slot_iff]
  constructor
  · rintro ⟨t, ht, hsite⟩
    obtain ⟨rfl, rfl⟩ := Prod.mk.inj hsite
    exact ⟨t, ht, rfl, rfl⟩
  · rintro ⟨t, ht, hslot, hspan⟩
    exact ⟨t, ht, Prod.ext (congrArg Span.start hspan) hslot⟩

theorem pairwise_sites (text : String) : (ofText text).sites.Pairwise fun a b => a.1 < b.1 := by
  apply List.pairwise_map.2
  apply (pairwise_tokensOf 0 [] (scan text.toList)).imp
  intro t u hstop
  exact t.start_lt_stop.trans_le hstop

/-- **The tokens of a part of a text are those of the text that lie in it.** -/
theorem sites_of_part (pre mid post : String) :
    (ofText (pre ++ mid ++ post)).sites.filter (fun a => pre.utf8ByteSize ≤ a.1 ∧
        a.1 + byteLength a.2.text ≤ pre.utf8ByteSize + mid.utf8ByteSize) =
      (ofText mid).sites.map fun a => (pre.utf8ByteSize + a.1, a.2) := by
  have : Std.Irrefl fun a b : Nat × Slot => a.1 < b.1 := ⟨fun a => Nat.lt_irrefl a.1⟩
  have : Std.Antisymm fun a b : Nat × Slot => a.1 < b.1 :=
    ⟨fun a b hab hba => absurd hab hba.asymm⟩
  -- both rows are in the order of the places, so it is enough that they have the same members
  apply ((pairwise_sites _).filter _).eq_of_mem_iff
    (List.pairwise_map.2 ((pairwise_sites mid).imp fun h => Nat.add_lt_add_left h _))
  rintro ⟨n, s⟩
  simp only [List.mem_filter, List.mem_map, mem_sites_iff, decide_eq_true_eq]
  constructor
  · rintro ⟨⟨hs, hstands⟩, hstart, hstop⟩
    obtain ⟨k, rfl⟩ := Nat.exists_eq_add_of_le hstart
    exact ⟨(k, s), mem_sites_iff.2 ⟨hs, standsAt_part_iff.2 ⟨hstands, by omega⟩⟩, rfl⟩
  · rintro ⟨⟨k, s'⟩, hmem, hsite⟩
    obtain ⟨rfl, rfl⟩ : pre.utf8ByteSize + k = n ∧ s' = s := Prod.mk.inj hsite
    obtain ⟨hs, hstands⟩ := mem_sites_iff.1 hmem
    obtain ⟨hstands, hstop⟩ := standsAt_part_iff.1 hstands
    exact ⟨⟨hs, hstands⟩, Nat.le_add_right _ _, by omega⟩

theorem slots_before (before after : String) :
    ((ofText (before ++ after)).tokens.toList.filter (·.span.stop ≤ before.utf8ByteSize)).map
        Token.slot = (ofText before).tokens.toList.map Token.slot := by
  have hslots := congrArg (List.map Prod.snd) (sites_of_part "" before after)
  rw [String.empty_append, sites, sites, List.filter_map, List.map_map, List.map_map,
    List.map_map] at hslots
  refine Eq.trans (congrArg _ (List.filter_congr fun t _ => decide_eq_decide.2 ?_)) hslots
  simp [Token.span]

theorem slots_after (before after : String) :
    ((ofText (before ++ after)).tokens.toList.filter (before.utf8ByteSize ≤ ·.span.start)).map
        Token.slot = (ofText after).tokens.toList.map Token.slot := by
  have hslots := congrArg (List.map Prod.snd) (sites_of_part before after "")
  rw [String.append_empty, sites, sites, List.filter_map, List.map_map, List.map_map,
    List.map_map] at hslots
  refine Eq.trans (congrArg _ (List.filter_congr fun t ht => decide_eq_decide.2 ?_)) hslots
  have hstop := (exists_slot_iff.1 ⟨t, ht, rfl, rfl⟩).2.stop_le
  rw [String.utf8ByteSize_append] at hstop
  exact (and_iff_left hstop).symm

/-! ## Texts with a placeholder put in -/

/-- No slot ends in a space, so that one behind a text makes no difference. -/
theorem slots_append_space (before : String) :
    (ofText (before ++ " ")).tokens.toList.map Token.slot =
      (ofText before).tokens.toList.map Token.slot := by
  rw [← slots_before before " ", List.filter_eq_self.2]
  intro t ht
  obtain ⟨earlier, ht⟩ := located_of_mem ht
  obtain ⟨cs, ds, htext, hstart⟩ := ht.stands
  rw [decide_eq_true_eq, ← byteLength_toList]
  rcases List.eq_nil_or_concat ds with rfl | ⟨ds, c, rfl⟩
  · have hlast := congrArg List.reverse htext
    simp [Slot.text_eq] at hlast
  · rw [String.toList_append, List.concat_eq_append, ← List.append_assoc, ← List.append_assoc]
      at htext
    obtain ⟨hbefore, -⟩ := List.append_inj' htext rfl
    rw [hbefore, byteLength_append, byteLength_append]
    show t.start + _ ≤ _
    omega

/-- No slot begins with a space, so that one before a text makes no difference. -/
theorem slots_space_append (after : String) :
    (ofText (" " ++ after)).tokens.toList.map Token.slot =
      (ofText after).tokens.toList.map Token.slot := by
  rw [← slots_after " " after, List.filter_eq_self.2]
  intro t ht
  obtain ⟨earlier, ht⟩ := located_of_mem ht
  obtain ⟨cs, ds, htext, hstart⟩ := ht.stands
  rw [decide_eq_true_eq]
  show _ ≤ t.start
  rw [hstart]
  cases cs with
  | nil => simp [Slot.text_eq] at htext
  | cons c cs =>
    have hpos := c.utf8Size_pos
    rw [byteLength_cons]
    show 1 ≤ _
    omega

theorem slots_of_insertion (hs : s.Proper) (before after : String) :
    (ofText (before ++ (" " ++ String.ofList s.text ++ " ") ++ after)).tokens.toList.map
        Token.slot =
      (ofText before).tokens.toList.map Token.slot ++
        s :: (ofText after).tokens.toList.map Token.slot := by
  have htext : (before ++ (" " ++ String.ofList s.text ++ " ") ++ after).toList =
      (before ++ " ").toList ++ (s.text ++ (" " ++ after).toList) := by
    simp
  rw [← slots_append_space before, ← slots_space_append after]
  simp only [tokens_ofText, map_slot_tokensOf]
  rw [htext, scan_append_slot hs, List.filterMap_append, List.filterMap_cons]
  rfl

/-- **A placeholder that is put in is one more token.** The tokens that end before it or start
behind it are still there, and there are no others. -/
theorem fullKeys_of_insertion {name : String} (hname : IsTrimmedName name)
    (before after : String) :
    let old := (ofText (before ++ after)).tokens.toList
    let inserted := " " ++ String.ofList (braced name.toList) ++ " "
    (ofText (before ++ inserted ++ after)).tokens.toList.map Token.fullKey =
      (old.filter (·.span.stop ≤ before.utf8ByteSize)).map Token.fullKey ++
        name :: (old.filter (before.utf8ByteSize ≤ ·.span.start)).map Token.fullKey := by
  intro old inserted
  have hslots := slots_of_insertion hname.proper before after
  rw [← slots_before before after, ← slots_after before after] at hslots
  have hkeys := congrArg (List.map fun s : Slot => String.ofList s.name) hslots
  rw [List.map_append, List.map_cons, List.map_map, List.map_map, List.map_map,
    String.ofList_toList] at hkeys
  rw [Slot.text_bare] at hkeys
  exact hkeys

end Parsed

end Stencil.Placeholder
