import Stencil.Proofs.Placeholder.Regrouping

/-!
# Texts with new names

New names are put into some of the tokens of a text, and the text is read again. Whatever the names
are, as long as each is read as it is written, the text falls into the same segments.

* `IsTrimmedName` — a name that is read as it is written, whatever white space it stands between;
* `Token.Substituted` — what is read in the place of a token that may get a new name;
* `substitution_keeps_tokens` — this is what is read in the place of every token, and nothing else
  changes.
-/

namespace Stencil.Placeholder

open Text

/-! ## Names -/

theorem trim_of_isBlank {s : String} (h : isBlank s) : trim s = "" := by
  have hstart : trimStart s.toList = [] := List.dropWhile_eq_nil_iff.2 (List.all_eq_true.1 h)
  rw [trim, hstart]
  rfl

/-- A name that is read as it is written: it is not empty, has no white space at its ends, and each
of its characters may stand between double braces. -/
structure IsTrimmedName (name : String) : Prop where
  ne_empty : name ≠ ""
  trim_eq : trim name = name
  free : ∀ c ∈ name.toList, c ≠ '\x7b' ∧ c ≠ '\x7d' ∧ c ≠ '\n'

instance (name : String) : Decidable (IsTrimmedName name) :=
  decidable_of_iff (name ≠ "" ∧ trim name = name ∧ name.toList.all Slot.isInner)
    ⟨fun h => ⟨h.1, h.2.1, fun c hc => isInner_iff.1 (List.all_eq_true.1 h.2.2 c hc)⟩,
      fun h => ⟨h.ne_empty, h.trim_eq,
        List.all_eq_true.2 fun c hc => isInner_iff.2 (h.free c hc)⟩⟩

theorem IsTrimmedName.isRawName {name : String} (h : IsTrimmedName name) :
    IsRawName name.toList := by
  refine ⟨h.free, fun hblank => h.ne_empty ?_⟩
  rw [String.ofList_toList] at hblank
  rw [← h.trim_eq, trim_of_isBlank hblank]

/-! ## Tokens with new names -/

/-- What is read in the place of a token that may get a new name: the same white space, and between
it the new name, or the old one if there is no other. -/
structure Token.Substituted (newName : Token → Option String) (t u : Token) : Prop where
  fullKey : u.fullKey = (newName t).getD t.fullKey
  lead : u.slot.lead = t.slot.lead
  trail : u.slot.trail = t.slot.trail

variable {newName : Token → Option String} {ps : List Piece} {start : Nat} {seen : List String}

theorem Token.substituted_newSlot {t : Token} (ht : t.slot.Proper)
    (hname : ∀ name, newName t = some name → IsTrimmedName name) (start' : Nat)
    (seen' : List String) : t.Substituted newName ((t.newSlot newName).token start' seen') := by
  cases hnew : newName t with
  | none =>
    have hslot : t.newSlot newName = t.slot := by rw [newSlot, hnew, Option.elim_none]
    rw [hslot]
    exact ⟨by rw [hnew]; rfl, rfl, rfl⟩
  | some name =>
    have htrimmed := hname name hnew
    have hslot : t.newSlot newName = t.slot.withName name := by
      rw [newSlot, hnew, Option.elim_some, ht.renamed_eq htrimmed.isRawName htrimmed.trim_eq]
    rw [hslot]
    refine ⟨?_, rfl, rfl⟩
    rw [hnew]
    exact String.ofList_toList

/-- The segments of a row whose tokens get new names, as it is read again at another place. -/
theorem forall₂_locate_newPiece (h : Row ps)
    (hname : ∀ t ∈ tokensOf start seen ps, ∀ name, newName t = some name → IsTrimmedName name)
    (start' : Nat) (seen' : List String) :
    List.Forall₂ (Segment.Rel (Token.Substituted newName)) (Segment.locate start seen ps)
      (Segment.locate start' seen'
        ((Segment.locate start seen ps).map (Segment.newPiece newName))) := by
  induction h generalizing start seen start' seen' with
  | nil => exact .nil
  | @slot s ps hs hps ih =>
    rw [tokensOf_slot, List.forall_mem_cons] at hname
    rw [locate_slot, List.map_cons, Segment.newPiece, locate_slot]
    apply List.Forall₂.cons
    · apply Segment.Rel.token
      exact Token.substituted_newSlot hs hname.1 _ _
    · exact ih hname.2 _ _
  | @literal run ps hne hfree hnext hps ih =>
    apply List.Forall₂.cons
    · exact .literal run start start'
    · exact ih hname _ _

/-- **New names make no new tokens and take none away.** The text is read as the same literal runs
with as many tokens between them, each with its new name if it got one, and with its old one
otherwise, between the same white space. -/
theorem substitution_keeps_tokens {text : String} {newName : Token → Option String}
    (hname : ∀ t ∈ (Parsed.ofText text).tokens.toList, ∀ name, newName t = some name →
      IsTrimmedName name) :
    let p := Parsed.ofText text
    let q := Parsed.ofText (p.rewrite newName)
    List.Forall₂ (Segment.Rel (Token.Substituted newName)) p.segments q.segments ∧
      List.Forall₂ (Token.Substituted newName) p.tokens.toList q.tokens.toList := by
  intro p q
  have hscan : scan (p.rewrite newName).toList = p.segments.map (Segment.newPiece newName) :=
    scan_rewrite fun t ht name hnew => (hname t ht name hnew).isRawName
  have hsegments :
      List.Forall₂ (Segment.Rel (Token.Substituted newName)) p.segments q.segments := by
    show List.Forall₂ _ p.segments (Segment.locate 0 [] (scan (p.rewrite newName).toList))
    rw [hscan]
    exact forall₂_locate_newPiece (row_scan text.toList) hname 0 []
  refine ⟨hsegments, ?_⟩
  rw [p.tokens_toList, q.tokens_toList]
  exact forall₂_tokens_of_segments hsegments

/-- Behind a brace too many and between what is no token, one token gets a longer name and another
one none. -/
theorem substitution_of_brace_run :
    let mark (name : String) := String.ofList (braced name.toList)
    let text := "\x7b" ++ mark " a " ++ "\x7d" ++ mark " " ++ mark "b_1" ++ "\x7b\x7bc"
    let newName (t : Token) : Option String := if t.baseKey = "a" then some "né_12" else none
    let q := Parsed.ofText ((Parsed.ofText text).rewrite newName)
    (Parsed.ofText text).rewrite newName =
        "\x7b" ++ mark " né_12 " ++ "\x7d" ++ mark " " ++ mark "b_1" ++ "\x7b\x7bc" ∧
      List.Forall₂ (Segment.Rel (Token.Substituted newName)) (Parsed.ofText text).segments
        q.segments ∧ q.tokens.toList.length = 2 := by
  intro mark text newName q
  have hname : ∀ t ∈ (Parsed.ofText text).tokens.toList, ∀ name, newName t = some name →
      IsTrimmedName name := by
    intro t _ name hnew
    obtain ⟨-, rfl⟩ : t.baseKey = "a" ∧ "né_12" = name := by simpa [newName] using hnew
    decide +kernel
  obtain ⟨hsegments, htokens⟩ := substitution_keeps_tokens hname
  refine ⟨by decide +kernel, hsegments, htokens.length_eq.symm.trans ?_⟩
  decide +kernel

end Stencil.Placeholder
