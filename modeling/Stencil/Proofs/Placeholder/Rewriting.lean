import Mathlib.Data.List.DropRight
import Stencil.Placeholder.GroupEdit
import Stencil.Proofs.Placeholder.Grammar

/-!
# Reading a rewritten text

A text with new names in its tokens is read again. The names can be anything that may stand between
double braces; white space at their ends is lost in the second reading.

* `scan_rewrite` — the pieces of the rewritten text;
* `split_trim_join` — a name with a group is read as it was put together. One without a group need
  not be: it may end in what reads as a group, or in white space.
-/

namespace Stencil.Placeholder

open Text

/-! ## White space at the ends -/

theorem trimStart_append_of_space {lead : List Char} (h : ∀ c ∈ lead, isSpace c) (cs : List Char) :
    trimStart (lead ++ cs) = trimStart cs := List.dropWhile_append_of_pos h

theorem trimEnd_append_of_space {trail : List Char} (cs : List Char) (h : ∀ c ∈ trail, isSpace c) :
    trimEnd (cs ++ trail) = trimEnd cs := by
  rw [trimEnd, List.reverse_append,
    List.dropWhile_append_of_pos fun c hc => h c (List.mem_reverse.1 hc), trimEnd]

theorem trimStart_cons {c : Char} (h : ¬ isSpace c) (cs : List Char) :
    trimStart (c :: cs) = c :: cs := List.dropWhile_cons_of_neg h

theorem trimEnd_concat {c : Char} (cs : List Char) (h : ¬ isSpace c) :
    trimEnd (cs ++ [c]) = cs ++ [c] := by
  rw [trimEnd, List.reverse_append, List.reverse_singleton, List.singleton_append,
    List.dropWhile_cons_of_neg h, List.reverse_cons, List.reverse_reverse]

/-- White space behind a text that is not blank stays when the start is trimmed. -/
theorem trimStart_append {cs : List Char} (h : ∃ c ∈ cs, ¬ isSpace c) (trail : List Char) :
    trimStart (cs ++ trail) = trimStart cs ++ trail := by
  have hne : (cs.dropWhile isSpace).isEmpty = false := by
    obtain ⟨c, hc, hspace⟩ := h
    rw [List.isEmpty_eq_false_iff]
    exact fun hnil => hspace (List.dropWhile_eq_nil_iff.1 hnil c hc)
  rw [trimStart, List.dropWhile_append, hne]
  rfl

/-- What is left without the white space at the ends does not begin with white space. -/
theorem not_isSpace_of_head?_trim {cs : List Char} {c : Char}
    (h : (trimEnd (trimStart cs)).head? = some c) : ¬ isSpace c := by
  have hstart : (cs.dropWhile isSpace).head? = some c := by
    rw [← trimStart, ← trimEnd_append_takeWhile (trimStart cs), List.head?_append, h]
    rfl
  simpa [hstart] using List.head?_dropWhile_not isSpace cs

@[simp] theorem trim_trim (s : String) : trim (trim s) = trim s := by
  have hstart : trimStart (trimEnd (trimStart s.toList)) = trimEnd (trimStart s.toList) := by
    cases h : trimEnd (trimStart s.toList) with
    | nil => rfl
    | cons c cs =>
      have hhead : (trimEnd (trimStart s.toList)).head? = some c := by rw [h, List.head?_cons]
      exact trimStart_cons (not_isSpace_of_head?_trim hhead) cs
  have hend : trimEnd (trimEnd (trimStart s.toList)) = trimEnd (trimStart s.toList) := by
    rw [trimEnd, trimEnd, List.reverse_reverse, List.dropWhile_idempotent]
  rw [trim, trim, String.toList_ofList, hstart, hend]

/-- The name of a slot that is read again, when there is only white space around it. -/
theorem Slot.name_ofInner {lead name trail : List Char} (hlead : ∀ c ∈ lead, isSpace c)
    (hname : ∃ c ∈ name, ¬ isSpace c) (htrail : ∀ c ∈ trail, isSpace c) :
    (Slot.ofInner (lead ++ name ++ trail)).name = trimEnd (trimStart name) := by
  rw [List.append_assoc]
  change trimEnd (trimStart (lead ++ (name ++ trail))) = trimEnd (trimStart name)
  rw [trimStart_append_of_space hlead, trimStart_append hname, trimEnd_append_of_space _ htrail]

/-! ## Slots with new names -/

/-- A slot with another name, as it is read again. -/
def Slot.renamed (s : Slot) (name : String) : Slot := .ofInner (s.withName name).inner

/-- The slot that is written in the place of a token, as it is read again. -/
def Token.newSlot (newName : Token → Option String) (t : Token) : Slot :=
  (newName t).elim t.slot t.slot.renamed

namespace Slot.Proper

variable {s : Slot} {name : String}

theorem space (hs : s.Proper) : (∀ c ∈ s.lead, isSpace c) ∧ ∀ c ∈ s.trail, isSpace c := by
  have hspace := hs.trim_inner.2
  exact ⟨fun c hc => hspace c (List.mem_append_left _ hc),
    fun c hc => hspace c (List.mem_append_right _ hc)⟩

theorem renamed (hs : s.Proper) (hname : IsRawName name.toList) : (s.renamed name).Proper := by
  obtain ⟨hinner, c, hc, hspace⟩ := isRawName_iff.1 hname
  have hmem {d : Char} : d ∈ (s.withName name).inner ↔
      (d ∈ s.lead ∨ d ∈ name.toList) ∨ d ∈ s.trail := by
    simp [withName, inner, or_assoc]
  refine proper_ofInner (fun d hd => ?_) ⟨c, hmem.2 (.inl (.inr hc)), hspace⟩
  rcases hmem.1 hd with (hd | hd) | hd
  · exact hs.isInner d (by simp [inner, hd])
  · exact hinner d hd
  · exact hs.isInner d (by simp [inner, hd])

/-- A new name is read back without the white space at its ends. -/
theorem name_renamed (hs : s.Proper) (hname : IsRawName name.toList) :
    (s.renamed name).name = (trim name).toList := by
  obtain ⟨hlead, htrail⟩ := hs.space
  rw [trim, String.toList_ofList]
  exact Slot.name_ofInner hlead (isRawName_iff.1 hname).2 htrail

/-- The name of a proper slot does not begin with white space. -/
theorem not_isSpace_of_head {c : Char} (hs : s.Proper) (hc : s.name.head? = some c) :
    ¬ isSpace c := by
  have hname : s.name = trimEnd (trimStart s.inner) :=
    congrArg Slot.name hs.parts.symm
  exact not_isSpace_of_head?_trim (hname ▸ hc)

end Slot.Proper

/-! ## The pieces of a rewritten text -/

/-- The piece that is written in the place of a segment, as it is read again. -/
def Segment.newPiece (newName : Token → Option String) : Segment → Piece
  | .literal run _ => .literal run
  | .token t => .slot (t.newSlot newName)

theorem Segment.text_newPiece (newName : Token → Option String) (segment : Segment) :
    (segment.newPiece newName).text = segment.rewrite newName := by
  cases segment with
  | literal run start => rfl
  | token t =>
    rw [newPiece, Piece.text_slot, Token.newSlot, rewrite]
    cases newName t with
    | none => rfl
    | some name => exact text_ofInner _

theorem Parsed.toList_rewrite (p : Parsed) (newName : Token → Option String) :
    (p.rewrite newName).toList = Piece.flatten (p.segments.map (Segment.newPiece newName)) := by
  rw [rewrite, String.toList_ofList, Piece.flatten, List.flatMap_map]
  congr 1
  funext segment
  exact (segment.text_newPiece newName).symm

section Rewrite

variable {newName : Token → Option String} {start : Nat} {seen : List String} {ps : List Piece}
  {text : String}

theorem Row.newPiece (h : Row ps)
    (hname : ∀ t ∈ tokensOf start seen ps, ∀ name, newName t = some name →
      IsRawName name.toList) :
    Row ((Segment.locate start seen ps).map (Segment.newPiece newName)) := by
  induction h generalizing start seen with
  | nil => exact .nil
  | @slot s ps hs hps ih =>
    rw [tokensOf_slot, List.forall_mem_cons] at hname
    refine .slot ?_ (ih hname.2)
    change ((s.token start seen).newSlot newName).Proper
    cases hnew : newName (s.token start seen) with
    | none =>
      rw [Token.newSlot, hnew]
      exact hs
    | some name =>
      rw [Token.newSlot, hnew]
      exact hs.renamed (hname.1 name hnew)
  | @literal run ps hne hfree hnext hps ih =>
    refine .literal hne hfree (fun next hhead => ?_) (ih hname)
    -- a slot stays a slot, so no run comes next either
    rcases hps.cases_of_head? hnext with rfl | ⟨s, qs, rfl, -, -⟩
    · simp [Segment.locate] at hhead
    · simp [Segment.locate, Segment.newPiece] at hhead

/-- **A rewritten text is read as the pieces it was made of.** -/
theorem scan_rewrite (hname : ∀ t ∈ (Parsed.ofText text).tokens.toList, ∀ name,
      newName t = some name → IsRawName name.toList) :
    scan ((Parsed.ofText text).rewrite newName).toList =
      (Parsed.ofText text).segments.map (Segment.newPiece newName) := by
  have hrow : Row ((Parsed.ofText text).segments.map (Segment.newPiece newName)) :=
    (row_scan text.toList).newPiece hname
  rw [Parsed.toList_rewrite]
  exact hrow.scan_flatten

end Rewrite

/-! ## Names that are put together -/

namespace Name

/-- A name begins with its base key. -/
theorem exists_append_of_ofChars (cs : List Char) :
    ∃ rest, cs = (ofChars cs).base.toList ++ rest := by
  unfold ofChars
  split
  · rename_i base suffix hsplit
    split
    · rw [String.toList_ofList]
      exact ⟨'_' :: suffix, (splitLast?_eq_some_iff.1 hsplit).1⟩
    · exact ⟨[], by simp⟩
  · exact ⟨[], by simp⟩

theorem split_join {base group : String} (hbase : base ≠ "") (hgroup : isNumeral group.toList) :
    split (join ⟨base, some group⟩) = ⟨base, some group⟩ := by
  have hsplit : splitLast? '_' (base ++ "_" ++ group).toList =
      some (base.toList, group.toList) := by
    refine splitLast?_eq_some_iff.2 ⟨by simp, fun hmem => ?_⟩
    exact absurd ((isNumeral_iff.1 hgroup).2 _ hmem) (by decide)
  have hne : base.toList.isEmpty = false := by
    rw [List.isEmpty_eq_false_iff]
    exact fun he => hbase (String.toList_inj.1 he)
  rw [isNumeral, Bool.and_eq_true] at hgroup
  simp only [split, join, ofChars, hsplit, hne, hgroup.1, hgroup.2]
  simp

end Name

section Regroup

variable {text : String} {t : Token} {group : Option String}

/-- The base key of a token begins with a character that is not white space, and all its characters
may stand between double braces. -/
theorem baseKey_of_mem (ht : t ∈ (Parsed.ofText text).tokens.toList) :
    ∃ c cs, t.baseKey.toList = c :: cs ∧ ¬ isSpace c ∧ ∀ d ∈ c :: cs, Slot.isInner d := by
  obtain ⟨pre, hpre⟩ := Parsed.located_of_mem ht
  have hproper := hpre.proper
  obtain ⟨rest, hrest⟩ := Name.exists_append_of_ofChars t.slot.name
  rw [← t.name_eq] at hrest
  have hne : t.baseKey.toList ≠ [] := fun hnil =>
    Parsed.baseKey_ne_empty ht (String.toList_inj.1 hnil)
  obtain ⟨c, cs, hbase⟩ := List.exists_cons_of_ne_nil hne
  change t.slot.name = t.baseKey.toList ++ rest at hrest
  rw [hbase] at hrest
  refine ⟨c, cs, hbase, hproper.not_isSpace_of_head (by simp [hrest]), fun d hd => ?_⟩
  refine hproper.isInner d ?_
  simp only [Slot.inner, List.mem_append]
  exact .inl (.inr (hrest ▸ List.mem_append_left rest hd))

theorem isInner_of_isDigit {c : Char} (h : c.isDigit) : Slot.isInner c := by
  simp only [Slot.isInner, Bool.and_eq_true, bne_iff_ne]
  refine ⟨⟨?_, ?_⟩, ?_⟩ <;> rintro rfl <;> exact absurd h (by decide)

theorem not_isSpace_of_isDigit {c : Char} (h : c.isDigit) : ¬ isSpace c := by
  intro hspace
  simp only [Char.isDigit, Bool.and_eq_true, decide_eq_true_eq] at h
  simp only [isSpace, Bool.or_eq_true, Bool.and_eq_true, decide_eq_true_eq, beq_iff_eq] at hspace
  have hlow : 48 ≤ c.toNat := h.1
  have hhigh : c.toNat ≤ 57 := h.2
  omega

/-- What can stand between double braces can stand there with a group. -/
theorem IsRawName.join {base : String} (hbase : IsRawName base.toList)
    (hgroup : ∀ g, group = some g → isNumeral g.toList) :
    IsRawName (Name.join ⟨base, group⟩).toList := by
  obtain ⟨hinner, c, hc, hspace⟩ := isRawName_iff.1 hbase
  cases group with
  | none => exact hbase
  | some g =>
    have hdigits := (isNumeral_iff.1 (hgroup g rfl)).2
    refine isRawName_iff.2 ?_
    simp only [Name.join, String.toList_append, List.mem_append]
    refine ⟨?_, c, .inl (.inl hc), hspace⟩
    rintro d ((hd | hd) | hd)
    · exact hinner d hd
    · obtain rfl : d = '_' := by simpa using hd
      decide
    · exact isInner_of_isDigit (hdigits d hd)

theorem isRawName_join (ht : t ∈ (Parsed.ofText text).tokens.toList)
    (hgroup : ∀ g, group = some g → isNumeral g.toList) :
    IsRawName (Name.join ⟨t.baseKey, group⟩).toList := by
  obtain ⟨c, cs, hbase, hspace, hinner⟩ := baseKey_of_mem ht
  rw [← hbase] at hinner
  exact (isRawName_iff.2 ⟨hinner, c, hbase ▸ List.mem_cons_self, hspace⟩).join hgroup

/-- **A base key with a group is read back as it was put together.** -/
theorem split_trim_join {g : String} (ht : t ∈ (Parsed.ofText text).tokens.toList)
    (hg : isNumeral g.toList) :
    Name.split (trim (Name.join ⟨t.baseKey, some g⟩)) = ⟨t.baseKey, some g⟩ := by
  obtain ⟨c, cs, hbase, hspace, -⟩ := baseKey_of_mem ht
  have htrim : trim (Name.join ⟨t.baseKey, some g⟩) = Name.join ⟨t.baseKey, some g⟩ := by
    obtain ⟨hne, hdigits⟩ := isNumeral_iff.1 hg
    obtain ⟨ds, d, hlast⟩ := List.eq_nil_or_concat g.toList |>.resolve_left hne
    have hd : ¬ isSpace d := not_isSpace_of_isDigit (hdigits d (by simp [hlast]))
    have hjoin : (Name.join ⟨t.baseKey, some g⟩).toList = c :: (cs ++ '_' :: ds) ++ [d] := by
      simp [Name.join, hbase, hlast]
    rw [trim, hjoin, List.cons_append, trimStart_cons hspace, ← List.cons_append,
      trimEnd_concat _ hd, ← hjoin, String.ofList_toList]
  rw [htrim]
  exact Name.split_join (Parsed.baseKey_ne_empty ht) hg

end Regroup

end Stencil.Placeholder
