import Mathlib.Data.List.Forall2
import Stencil.Proofs.Placeholder.Rewriting

/-!
# Reading a text with renamed base keys

Base keys are renamed slot by slot, so a text can be read again piece by piece.

* `Name.ReadsBack` — a name that is read as it was put together;
* `scan_renameBases` — the pieces of the text with renamed keys;
* `forall₂_name_renameBases` — the name that is read in the place of each token;
* `Token.Rebased` — what is read when one key is renamed: `forall₂_rebased`, and
  `forall₂_rebased_of_unused`, where the tokens keep their numbers;
* `renameBases_renameBases` — a key that is renamed forth and back.
-/

namespace Stencil.Placeholder

open Text

/-! ## Names -/

namespace Name

/-- A name is what its base key and its group are put together to. -/
@[simp] theorem join_ofChars (cs : List Char) : (ofChars cs).join = String.ofList cs := by
  unfold ofChars
  split
  · rename_i base suffix hsplit
    split
    · rw [(splitLast?_eq_some_iff.1 hsplit).1, ← String.toList_inj]
      simp [join]
    · rfl
  · rfl

/-- Every text is a name, and its parts make it up. -/
theorem join_split (s : String) : (split s).join = s :=
  (join_ofChars s.toList).trans String.ofList_toList

/-- A name without a group is its own base key. -/
theorem split_of_group_eq_none {s : String} (h : (split s).group = none) : split s = ⟨s, none⟩ := by
  have hjoin := join_split s
  have hbase : (split s).base = s := by rwa [join, h] at hjoin
  calc split s = ⟨(split s).base, (split s).group⟩ := rfl
    _ = ⟨s, none⟩ := by rw [hbase, h]

/-- A name has a group if a numeral stands behind its last underscore, and something before it. -/
theorem group_isSome_iff {cs : List Char} :
    (ofChars cs).group.isSome ↔
      ∃ before after, splitLast? '_' cs = some (before, after) ∧ before ≠ [] ∧
        isNumeral after := by
  unfold ofChars
  split
  · rename_i base suffix hsplit
    have hparts : (∃ before after, splitLast? '_' cs = some (before, after) ∧ before ≠ [] ∧
        isNumeral after) ↔ base ≠ [] ∧ isNumeral suffix := by
      simp [hsplit]
    rw [hparts, isNumeral]
    split <;> simp_all
  · simp [*]

/-- A group is a numeral. -/
theorem isNumeral_of_group_eq_some {cs : List Char} {group : String}
    (h : (ofChars cs).group = some group) : isNumeral group.toList := by
  unfold ofChars at h
  split at h
  · rename_i base suffix hsplit
    split at h
    · rename_i hgroup
      simp only [Bool.and_eq_true] at hgroup
      rw [← Option.some.inj h, String.toList_ofList, isNumeral, hgroup.1.2, hgroup.2]
      rfl
    · simp at h
  · simp at h

/-- A name that is read as it was put together when it stands between double braces. -/
structure ReadsBack (n : Name) : Prop where
  isRawName : IsRawName n.join.toList
  trim_join : trim n.join = n.join
  split_join : split n.join = n

/-- A base key that is read back alone and with every group. -/
def BaseReadsBack (base : String) : Prop :=
  ∀ group : Option String, (∀ g, group = some g → isNumeral g.toList) → ReadsBack ⟨base, group⟩

end Name

theorem Token.isNumeral_of_group?_eq_some {t : Token} {group : String}
    (h : t.group? = some group) : isNumeral group.toList := by
  rw [Token.group?, t.name_eq] at h
  exact Name.isNumeral_of_group_eq_some h

theorem Token.name_eq_iff {t : Token} {n : Name} :
    t.name = n ↔ t.baseKey = n.base ∧ t.group? = n.group := by
  rw [Token.baseKey, Token.group?]
  cases t.name
  cases n
  simp

theorem Name.BaseReadsBack.token {base : String} (h : BaseReadsBack base) (t : Token) :
    ReadsBack ⟨base, t.group?⟩ := h _ fun _ => t.isNumeral_of_group?_eq_some

/-! ## Pieces -/

/-- A slot after base keys have been renamed, as it is read again. -/
def Slot.rebase (renames : Renames) (s : Slot) : Slot :=
  (renames.get? s.base).elim s fun base => s.renamed (Name.join ⟨base, (Name.ofChars s.name).group⟩)

/-- A piece after base keys have been renamed, as it is read again. -/
def Piece.rebase (renames : Renames) : Piece → Piece
  | .literal run => .literal run
  | .slot s => .slot (s.rebase renames)

/-- The name that a token gets when base keys are renamed. -/
def newBaseName (renames : Renames) (t : Token) : Option String :=
  (renames.get? t.baseKey).map fun base => Name.join ⟨base, t.group?⟩

theorem newSlot_token (renames : Renames) (s : Slot) (start : Nat) (seen : List String) :
    (s.token start seen).newSlot (newBaseName renames) = s.rebase renames := by
  rw [Token.newSlot, newBaseName, Slot.baseKey_token, Slot.rebase]
  cases renames.get? s.base <;> rfl

theorem map_newPiece_locate (renames : Renames) (start : Nat) (seen : List String)
    (ps : List Piece) :
    (Segment.locate start seen ps).map (Segment.newPiece (newBaseName renames)) =
      ps.map (Piece.rebase renames) := by
  induction ps generalizing start seen with
  | nil => rfl
  | cons p ps ih =>
    cases p with
    | literal run => exact congrArg (Piece.literal run :: ·) (ih _ _)
    | slot s =>
      rw [locate_slot, List.map_cons, List.map_cons, ih, Segment.newPiece, newSlot_token]
      rfl

section RenameBases

variable {renames : Renames} {text : String}

theorem toList_renameBases (renames : Renames) (text : String) :
    (renameBases renames text).toList =
      Piece.flatten ((scan text.toList).map (Piece.rebase renames)) := by
  rw [← map_newPiece_locate renames 0 []]
  exact Parsed.toList_rewrite _ _

theorem Piece.flatten_rebase_eq_nil_iff {ps : List Piece} :
    flatten (ps.map (rebase renames)) = [] ↔ flatten ps = [] := by
  induction ps with
  | nil => rfl
  | cons p ps ih =>
    cases p with
    | literal run => simp [rebase, ih]
    | slot s => simp [rebase, Slot.text_eq]

/-- A text is empty after base keys have been renamed if it was before. -/
theorem renameBases_eq_empty_iff : renameBases renames text = "" ↔ text = "" := by
  have hnil (s : String) : s = "" ↔ s.toList = [] := String.toList_inj.symm
  rw [hnil, hnil, toList_renameBases, Piece.flatten_rebase_eq_nil_iff, flatten_scan]

/-- Without new keys a text stays as it is. -/
theorem renameBases_nil (text : String) : renameBases [] text = text := by
  have hpiece : Piece.rebase [] = id := by
    funext p
    cases p <;> rfl
  rw [← String.toList_inj, toList_renameBases, hpiece, List.map_id, flatten_scan]

/-- **A text with renamed base keys is read as the pieces it was made of.** -/
theorem scan_renameBases (hraw : ∀ t ∈ (Parsed.ofText text).tokens.toList, ∀ base,
      renames.get? t.baseKey = some base → IsRawName (Name.join ⟨base, t.group?⟩).toList) :
    scan (renameBases renames text).toList = (scan text.toList).map (Piece.rebase renames) := by
  rw [← map_newPiece_locate renames 0 []]
  refine scan_rewrite fun t ht name hname => ?_
  obtain ⟨base, hbase, rfl⟩ := Option.map_eq_some_iff.1 hname
  exact hraw t ht base hbase

/-! ## Tokens -/

theorem forall₂_tokensOf_rebase (renames : Renames) (start start' : Nat)
    (seen seen' : List String) (ps : List Piece) :
    List.Forall₂ (fun t u : Token => u.slot = t.slot.rebase renames) (tokensOf start seen ps)
      (tokensOf start' seen' (ps.map (Piece.rebase renames))) := by
  induction ps generalizing start start' seen seen' with
  | nil => exact .nil
  | cons p ps ih =>
    cases p with
    | literal run => exact ih _ _ _ _
    | slot s => exact .cons rfl (ih _ _ _ _)

/-- **What is read in the place of each token when base keys are renamed.** -/
theorem forall₂_name_renameBases (hraw : ∀ t ∈ (Parsed.ofText text).tokens.toList, ∀ base,
      renames.get? t.baseKey = some base → IsRawName (Name.join ⟨base, t.group?⟩).toList) :
    List.Forall₂
      (fun t u : Token => u.name = (renames.get? t.baseKey).elim t.name fun base =>
        Name.split (trim (Name.join ⟨base, t.group?⟩)))
      (Parsed.ofText text).tokens.toList
      (Parsed.ofText (renameBases renames text)).tokens.toList := by
  have hslots := forall₂_tokensOf_rebase renames 0 0 [] [] (scan text.toList)
  rw [← scan_renameBases hraw] at hslots
  refine ((List.forall₂_and_left _ _).2 ⟨fun t ht => ht, hslots⟩).imp ?_
  rintro t u ⟨ht, hslot⟩
  obtain ⟨pre, hpre⟩ := Parsed.located_of_mem ht
  have hbase : t.slot.base = t.baseKey := by rw [Token.baseKey, t.name_eq, Slot.base]
  have hgroup : (Name.ofChars t.slot.name).group = t.group? := by rw [Token.group?, t.name_eq]
  rw [u.name_eq, hslot, Slot.rebase, hbase, hgroup]
  cases hget : renames.get? t.baseKey with
  | none => exact t.name_eq.symm
  | some base =>
    rw [Option.elim_some, Option.elim_some, hpre.proper.name_renamed (hraw t ht base hget)]
    rfl

/-- The token at a place is numbered by those before it with its base key. -/
theorem Parsed.occurrence_eq_count {n : Nat} {t : Token}
    (h : (ofText text).tokens.toList[n]? = some t) :
    t.occurrence = (((ofText text).tokens.toList.take n).map Token.baseKey).count t.baseKey := by
  obtain ⟨hn, rfl⟩ := List.getElem?_eq_some_iff.1 h
  have hsplit : (ofText text).tokens.toList = (ofText text).tokens.toList.take n ++
      (ofText text).tokens.toList[n] :: (ofText text).tokens.toList.drop (n + 1) := by
    rw [List.getElem_cons_drop, List.take_append_drop]
  rw [(located hsplit).occurrence, List.count, List.countP_map]
  rfl

/-- Every slot of a text has a token. -/
theorem Parsed.exists_token_of_mem_scan {s : Slot} (h : .slot s ∈ scan text.toList) :
    ∃ t ∈ (ofText text).tokens.toList, t.slot = s := by
  obtain ⟨qs, rs, hscan⟩ := List.append_of_mem h
  rw [tokens_ofText, hscan, tokensOf_append, tokensOf_slot]
  exact ⟨_, List.mem_append_right _ List.mem_cons_self, rfl⟩

end RenameBases

/-! ## One renamed key -/

/-- What a key is called after `key` has become `newKey`. -/
def renamedKey (key newKey k : String) : String := if k = key then newKey else k

@[simp] theorem renamedKey_self (key newKey : String) : renamedKey key newKey key = newKey :=
  if_pos rfl

section OneKey

variable {key newKey text : String}

theorem renamedKey_of_ne {k : String} (h : k ≠ key) : renamedKey key newKey k = k := if_neg h

/-- Keys other than the new one stay apart. -/
theorem renamedKey_inj {a b : String} (ha : a ≠ newKey) (hb : b ≠ newKey)
    (h : renamedKey key newKey a = renamedKey key newKey b) : a = b := by
  by_cases ha' : a = key <;> by_cases hb' : b = key
  · exact ha'.trans hb'.symm
  · rw [ha', renamedKey_self, renamedKey_of_ne hb'] at h
    exact absurd h.symm hb
  · rw [hb', renamedKey_self, renamedKey_of_ne ha'] at h
    exact absurd h ha
  · rwa [renamedKey_of_ne ha', renamedKey_of_ne hb'] at h

theorem Renames.get?_singleton (key newKey k : String) :
    Renames.get? [(key, newKey)] k = if k = key then some newKey else none := by
  rw [Renames.get?, List.reverse_singleton, List.lookup_cons, List.lookup_nil]
  by_cases h : k = key
  · simp [h]
  · rw [beq_false_of_ne h, if_neg h]

/-- What is read in the place of a token when `key` becomes `newKey`. -/
structure Token.Rebased (key newKey : String) (t u : Token) : Prop where
  baseKey : u.baseKey = renamedKey key newKey t.baseKey
  group : u.group? = t.group?

/-- **Each token is read again with its new base key and its group**, if the new key is read back
with every group. -/
theorem forall₂_rebased (hnew : Name.BaseReadsBack newKey) :
    List.Forall₂ (Token.Rebased key newKey) (Parsed.ofText text).tokens.toList
      (Parsed.ofText (renameBases [(key, newKey)] text)).tokens.toList := by
  refine (forall₂_name_renameBases fun t _ base hbase => ?_).imp fun t u hname => ?_
  · rw [Renames.get?_singleton] at hbase
    obtain ⟨-, rfl⟩ := by simpa using hbase
    exact (hnew.token t).isRawName
  · have hname' : u.name = ⟨renamedKey key newKey t.baseKey, t.group?⟩ := by
      rw [hname, Renames.get?_singleton, renamedKey]
      split
      · rw [Option.elim_some, (hnew.token t).trim_join, (hnew.token t).split_join]
      · rfl
    exact ⟨by rw [Token.baseKey, hname'], by rw [Token.group?, hname']⟩

/-- **Tokens keep their numbers** when no token has the new key before. -/
theorem forall₂_rebased_of_unused (hnew : Name.BaseReadsBack newKey)
    (hunused : ∀ t ∈ (Parsed.ofText text).tokens.toList, t.baseKey ≠ newKey) :
    List.Forall₂ (fun t u : Token => t.Rebased key newKey u ∧ u.occurrence = t.occurrence)
      (Parsed.ofText text).tokens.toList
      (Parsed.ofText (renameBases [(key, newKey)] text)).tokens.toList := by
  have hrebased : List.Forall₂ (Token.Rebased key newKey) (Parsed.ofText text).tokens.toList
      (Parsed.ofText (renameBases [(key, newKey)] text)).tokens.toList := forall₂_rebased hnew
  refine List.forall₂_iff_get.2 ⟨hrebased.length_eq, fun n hn hn' => ?_⟩
  have htu := hrebased.get hn hn'
  rw [List.get_eq_getElem, List.get_eq_getElem] at htu ⊢
  refine ⟨htu, ?_⟩
  have hkeys : ((Parsed.ofText (renameBases [(key, newKey)] text)).tokens.toList.take n).map
        Token.baseKey =
      (((Parsed.ofText text).tokens.toList.take n).map Token.baseKey).map
        (renamedKey key newKey) := by
    rw [List.map_map, List.forall₂_eq_eq_eq.symm]
    refine List.forall₂_map_left_iff.2 (List.forall₂_map_right_iff.2 ?_)
    exact (List.forall₂_take n hrebased).flip.imp fun _ _ h => h.baseKey
  rw [Parsed.occurrence_eq_count (List.getElem?_eq_getElem hn),
    Parsed.occurrence_eq_count (List.getElem?_eq_getElem hn'), hkeys, htu.baseKey, List.count,
    List.countP_map, List.count]
  -- among keys other than the new one, the renamed ones agree where the old ones do
  refine List.countP_congr fun k hk => ?_
  obtain ⟨w, hw, rfl⟩ := List.mem_map.1 hk
  have hw' := hunused w (List.mem_of_mem_take hw)
  have ht' := hunused _ (List.getElem_mem hn)
  simp only [Function.comp_apply, beq_iff_eq]
  exact ⟨renamedKey_inj hw' ht', fun heq => congrArg (renamedKey key newKey) heq⟩

/-! ## Forth and back -/

/-- A name without white space at its ends is read as it is, whatever white space stands around
it. -/
theorem Slot.ofInner_of_trim_eq {lead trail : List Char} {name : String}
    (hlead : ∀ c ∈ lead, isSpace c) (htrail : ∀ c ∈ trail, isSpace c)
    (hname : IsRawName name.toList) (htrim : trim name = name) :
    ofInner (lead ++ name.toList ++ trail) = ⟨lead, name.toList, trail⟩ := by
  have hblank := (isRawName_iff.1 hname).2
  have hchars : trimEnd (trimStart name.toList) = name.toList := by
    rw [trim, ← String.toList_inj, String.toList_ofList] at htrim
    exact htrim
  have hnew : (ofInner (lead ++ name.toList ++ trail)).name = name.toList := by
    rw [name_ofInner hlead hblank htrail, hchars]
  obtain ⟨d, hd, -⟩ := hblank
  obtain ⟨c, cs, hcs⟩ := List.exists_cons_of_ne_nil (List.ne_nil_of_mem hd)
  have hc : ¬ isSpace c := not_isSpace_of_head?_trim (by rw [hchars, hcs, List.head?_cons])
  have hfirst : (ofInner (lead ++ name.toList ++ trail)).lead = lead := by
    change (lead ++ name.toList ++ trail).takeWhile isSpace = lead
    rw [hcs, List.append_assoc, List.takeWhile_append_of_pos hlead, List.cons_append,
      List.takeWhile_cons_of_neg hc, List.append_nil]
  have hlast : (ofInner (lead ++ name.toList ++ trail)).trail = trail := by
    have hinner := inner_ofInner (lead ++ name.toList ++ trail)
    rw [inner, hfirst, hnew] at hinner
    exact List.append_cancel_left hinner
  calc ofInner (lead ++ name.toList ++ trail) =
        ⟨(ofInner (lead ++ name.toList ++ trail)).lead,
          (ofInner (lead ++ name.toList ++ trail)).name,
          (ofInner (lead ++ name.toList ++ trail)).trail⟩ := rfl
    _ = ⟨lead, name.toList, trail⟩ := by rw [hfirst, hnew, hlast]

/-- Such a name may stand alone between the braces. -/
theorem Slot.ofInner_bare {name : String} (hname : IsRawName name.toList)
    (htrim : trim name = name) : ofInner name.toList = ⟨[], name.toList, []⟩ := by
  have hread := @ofInner_of_trim_eq [] [] name (by simp) (by simp) hname htrim
  rwa [List.nil_append, List.append_nil] at hread

/-- A new name without white space at its ends stands in a slot as it is. -/
theorem Slot.Proper.renamed_eq {s : Slot} {name : String} (hs : s.Proper)
    (hname : IsRawName name.toList) (htrim : trim name = name) :
    s.renamed name = s.withName name :=
  Slot.ofInner_of_trim_eq hs.space.1 hs.space.2 hname htrim

/-- A slot is written as before after its base key has been renamed forth and back. -/
theorem Slot.text_rebase_rebase {s : Slot} (hs : s.Proper)
    (hnew : Name.ReadsBack ⟨newKey, (Name.ofChars s.name).group⟩) (hbase : s.base ≠ newKey) :
    ((s.rebase [(key, newKey)]).rebase [(newKey, key)]).text = s.text := by
  by_cases hkey : s.base = key
  · have hforth : s.rebase [(key, newKey)] =
        s.withName (Name.join ⟨newKey, (Name.ofChars s.name).group⟩) := by
      rw [rebase, Renames.get?_singleton, if_pos hkey, Option.elim_some,
        hs.renamed_eq hnew.isRawName hnew.trim_join]
    have hname : Name.ofChars (s.rebase [(key, newKey)]).name =
        ⟨newKey, (Name.ofChars s.name).group⟩ := by
      rw [hforth]
      exact hnew.split_join
    have hjoin : Name.join ⟨key, (Name.ofChars s.name).group⟩ = String.ofList s.name := by
      rw [← hkey, base, ← Name.join_ofChars]
    rw [rebase, base, hname, Renames.get?_singleton, if_pos rfl, Option.elim_some, hjoin, hforth]
    refine (text_ofInner _).trans ?_
    simp [withName, inner, text, braced]
  · have hforth : s.rebase [(key, newKey)] = s := by
      rw [rebase, Renames.get?_singleton, if_neg hkey, Option.elim_none]
    rw [hforth, rebase, Renames.get?_singleton, if_neg hbase, Option.elim_none]

/-- **A key that is renamed to one that the text does not use, and back, leaves the text as it
was.** -/
theorem renameBases_renameBases (hnew : Name.BaseReadsBack newKey)
    (hunused : ∀ t ∈ (Parsed.ofText text).tokens.toList, t.baseKey ≠ newKey) :
    renameBases [(newKey, key)] (renameBases [(key, newKey)] text) = text := by
  have hscan : scan (renameBases [(key, newKey)] text).toList =
      (scan text.toList).map (Piece.rebase [(key, newKey)]) := by
    refine scan_renameBases fun t _ base hbase => ?_
    rw [Renames.get?_singleton] at hbase
    obtain ⟨-, rfl⟩ := by simpa using hbase
    exact (hnew.token t).isRawName
  have hpiece : ∀ p ∈ scan text.toList,
      ((p.rebase [(key, newKey)]).rebase [(newKey, key)]).text = p.text := by
    intro p hp
    cases p with
    | literal run => rfl
    | slot s =>
      obtain ⟨t, ht, rfl⟩ := Parsed.exists_token_of_mem_scan hp
      have hbase : t.slot.base ≠ newKey := by
        have hne := hunused t ht
        rwa [Token.baseKey, t.name_eq] at hne
      exact Slot.text_rebase_rebase ((row_scan _).proper_of_mem hp)
        (hnew _ fun _ => Name.isNumeral_of_group_eq_some) hbase
  have hpieces : Piece.flatten (((scan text.toList).map (Piece.rebase [(key, newKey)])).map
      (Piece.rebase [(newKey, key)])) = Piece.flatten (scan text.toList) := by
    rw [Piece.flatten, List.flatMap_map, List.flatMap_map]
    exact List.flatMap_congr fun p hp => hpiece p hp
  rw [← String.toList_inj, toList_renameBases, hscan, hpieces, flatten_scan]

end OneKey

end Stencil.Placeholder
