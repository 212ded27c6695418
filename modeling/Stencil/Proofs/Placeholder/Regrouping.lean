import Stencil.Proofs.Placeholder.Cursor
import Stencil.Proofs.Placeholder.Renaming
import Stencil.Proofs.Text.Boundary

/-!
# A token that changes its group

When the token under a cursor is put into a group or taken out of one, the text is the same but for
one name, and is read again.

* `Parsed.Replaces` — a text that has one token in the place of another, behind the same segments
  and before ones that are related;
* `Parsed.toList_regroup` — the text in which one token has another group;
* `exists_regrouping` — this is what a change of group does, whatever the new name is read as;
  `Regrouping.of_readBack` is the case in which it is read as it was put together;
* `Name.StandsAlone` — a base key that is read back without a group;
* `assignment_touches_one_token` — a token that is put into a group changes nothing else, and the
  cursor stays in it.
-/

namespace Stencil.Placeholder

open Text

/-! ## Texts with one token replaced -/

/-- Both are the same literal run, or both are related tokens. Their places may differ. -/
inductive Segment.Rel (r : Token → Token → Prop) : Segment → Segment → Prop
  /-- A literal run. -/
  | literal (run : List Char) (start start' : Nat) :
    Rel r (.literal run start) (.literal run start')
  /-- Two tokens. -/
  | token {t u : Token} (h : r t u) : Rel r (.token t) (.token u)

/-- The tokens among segments that are related one by one. -/
theorem forall₂_tokens_of_segments {r : Token → Token → Prop} {segments segments' : List Segment}
    (h : List.Forall₂ (Segment.Rel r) segments segments') :
    List.Forall₂ r (segments.filterMap Segment.token?) (segments'.filterMap Segment.token?) := by
  induction h with
  | nil => exact .nil
  | cons hsegment _ ih =>
    cases hsegment with
    | literal run start start' => exact ih
    | token h => exact .cons h ih

/-- Both tokens are read as the same name. -/
structure Token.SameName (t u : Token) : Prop where
  fullKey : u.fullKey = t.fullKey
  baseKey : u.baseKey = t.baseKey
  group : u.group? = t.group?

theorem Token.SameName.of_slot {t u : Token} (h : u.slot = t.slot) : t.SameName u := by
  have hname : u.name = t.name := by rw [u.name_eq, t.name_eq, h]
  exact ⟨congrArg (fun s : Slot => String.ofList s.name) h, congrArg Name.base hname,
    congrArg Name.group hname⟩

/-- An item of the second of two lists that are related item by item has one that is related to it
in the first. -/
theorem exists_of_mem_right {α β : Type} {r : α → β → Prop} {as : List α} {bs : List β} {b : β}
    (h : List.Forall₂ r as bs) (hb : b ∈ bs) : ∃ a ∈ as, r a b := by
  induction h with
  | nil => simp at hb
  | @cons a b' as bs hr _ ih =>
    rcases List.mem_cons.1 hb with rfl | hb
    · exact ⟨a, List.mem_cons_self, hr⟩
    · obtain ⟨a', ha', hr'⟩ := ih hb
      exact ⟨a', List.mem_cons_of_mem a ha', hr'⟩

/-- `q` is `p` with the token `u` in the place of `t`. The segments before it are the same, and
those behind it are the same literal runs and tokens related by `r`, at other places. -/
def Parsed.Replaces (r : Token → Token → Prop) (p q : Parsed) (t u : Token) : Prop :=
  ∃ pre post post', p.segments = pre ++ .token t :: post ∧ q.segments = pre ++ .token u :: post' ∧
    List.Forall₂ (Segment.Rel r) post post'

namespace Parsed.Replaces

variable {r r' : Token → Token → Prop} {p q : Parsed} {t u : Token}

theorem imp (h : p.Replaces r q t u) (hr : ∀ t u, r t u → r' t u) : p.Replaces r' q t u := by
  obtain ⟨pre, post, post', hp, hq, hpost⟩ := h
  refine ⟨pre, post, post', hp, hq, hpost.imp ?_⟩
  rintro _ _ (⟨run, start, start'⟩ | h)
  · exact .literal run start start'
  · exact .token (hr _ _ h)

/-- The tokens of both texts, one by one. -/
theorem tokens (h : p.Replaces r q t u) :
    ∃ pre post post', p.tokens.toList = pre ++ t :: post ∧ q.tokens.toList = pre ++ u :: post' ∧
      List.Forall₂ r post post' := by
  obtain ⟨pre, post, post', hp, hq, hpost⟩ := h
  refine ⟨pre.filterMap Segment.token?, post.filterMap Segment.token?,
    post'.filterMap Segment.token?, ?_, ?_, ?_⟩
  · rw [p.tokens_toList, hp, List.filterMap_append]
    rfl
  · rw [q.tokens_toList, hq, List.filterMap_append]
    rfl
  · exact forall₂_tokens_of_segments hpost

theorem mem (h : p.Replaces r q t u) : u ∈ q.tokens.toList := by
  obtain ⟨pre, post, post', -, hq, -⟩ := h.tokens
  simp [hq]

/-- Every other token of the second text has one in the first that is related to it. -/
theorem eq_or_exists (h : p.Replaces r q t u) (hrefl : ∀ v, r v v) {w : Token}
    (hw : w ∈ q.tokens.toList) : w = u ∨ ∃ v ∈ p.tokens.toList, r v w := by
  obtain ⟨pre, post, post', hp, hq, hpost⟩ := h.tokens
  rw [hq, List.mem_append, List.mem_cons] at hw
  rw [hp]
  rcases hw with hw | rfl | hw
  · exact .inr ⟨w, List.mem_append_left _ hw, hrefl w⟩
  · exact .inl rfl
  · obtain ⟨v, hv, hvw⟩ := exists_of_mem_right hpost hw
    exact .inr ⟨v, List.mem_append_right _ (List.mem_cons_of_mem _ hv), hvw⟩

/-- All tokens of both texts are related, if tokens are to themselves. -/
theorem forall₂_tokens (h : p.Replaces r q t u) (hrefl : ∀ v, r v v) (htu : r t u) :
    List.Forall₂ r p.tokens.toList q.tokens.toList := by
  obtain ⟨pre, post, post', hp, hq, hpost⟩ := h.tokens
  rw [hp, hq]
  exact List.rel_append (List.forall₂_same.2 fun v _ => hrefl v) (.cons htu hpost)

/-- What relates all tokens of both texts relates the one to that in its place. -/
theorem rel_of_forall₂_tokens (h : p.Replaces r q t u)
    (hall : List.Forall₂ r' p.tokens.toList q.tokens.toList) : r' t u := by
  obtain ⟨pre, post, post', hp, hq, -⟩ := h.tokens
  have hdrop := List.forall₂_drop pre.length hall
  rw [hp, hq, List.drop_left, List.drop_left] at hdrop
  exact (List.forall₂_cons.1 hdrop).1

end Parsed.Replaces

/-- The segments of one row, read at two places behind two rows of base keys. -/
theorem forall₂_locate {r : Token → Token → Prop} {seen seen' : List String}
    (h : ∀ (s : Slot) (start start' : Nat) (more : List String),
      r (s.token start (more ++ seen)) (s.token start' (more ++ seen'))) (start start' : Nat)
    (ps : List Piece) :
    List.Forall₂ (Segment.Rel r) (Segment.locate start seen ps)
      (Segment.locate start' seen' ps) := by
  induction ps generalizing start start' seen seen' with
  | nil => exact .nil
  | cons p ps ih =>
    cases p with
    | literal run => exact .cons (.literal run start start') (ih h _ _)
    | slot s =>
      rw [locate_slot, locate_slot]
      refine .cons (.token (h s start start' [])) (ih (fun s' a a' more => ?_) _ _)
      simpa using h s' a a' (more ++ [s.base])

section OneSlot

variable {text text' : String} {qs rs : List Piece} {s s' : Slot}

/-- A row with another slot in the place of one of its slots. -/
theorem Parsed.replaces_of_scan {r : Token → Token → Prop}
    (hscan : scan text.toList = qs ++ .slot s :: rs)
    (hscan' : scan text'.toList = qs ++ .slot s' :: rs)
    (hr : ∀ (v : Slot) (start start' : Nat) (more : List String),
      r (v.token start (more ++ s.base :: Piece.bases qs))
        (v.token start' (more ++ s'.base :: Piece.bases qs))) :
    (ofText text).Replaces r (ofText text')
      (s.token (byteLength (Piece.flatten qs)) (Piece.bases qs))
      (s'.token (byteLength (Piece.flatten qs)) (Piece.bases qs)) := by
  have hsegments (v : Slot) : Segment.locate 0 [] (qs ++ .slot v :: rs) =
      Segment.locate 0 [] qs ++
        .token (v.token (byteLength (Piece.flatten qs)) (Piece.bases qs)) ::
          Segment.locate (byteLength (Piece.flatten qs) + byteLength v.text)
            (v.base :: Piece.bases qs) rs := by
    rw [locate_append, locate_slot, Nat.zero_add, List.append_nil]
  exact ⟨_, _, _, (congrArg (Segment.locate 0 []) hscan).trans (hsegments s),
    (congrArg (Segment.locate 0 []) hscan').trans (hsegments s'), forall₂_locate hr _ _ rs⟩

end OneSlot

/-! ## Changed groups -/

section Regroup

variable {text : String} {t u : Token} {newName : Token → Option String} {start : Nat}
  {seen : List String} {ps : List Piece}

/-- Without new names for its tokens, a row stays as it is. -/
theorem map_newPiece_of_none (h : ∀ t ∈ tokensOf start seen ps, newName t = none) :
    (Segment.locate start seen ps).map (Segment.newPiece newName) = ps := by
  induction ps generalizing start seen with
  | nil => rfl
  | cons p ps ih =>
    cases p with
    | literal run => exact congrArg (Piece.literal run :: ·) (ih h)
    | slot s =>
      rw [tokensOf_slot, List.forall_mem_cons] at h
      rw [locate_slot, List.map_cons, ih h.2, Segment.newPiece, Token.newSlot, h.1]
      rfl

theorem stop_le_of_mem_tokensOf (h : t ∈ tokensOf start seen ps) :
    t.span.stop ≤ start + byteLength (Piece.flatten ps) := by
  obtain ⟨pre, post, h⟩ := List.append_of_mem h
  obtain ⟨qs, s, rs, rfl, -, rfl⟩ := exists_split_of_tokensOf h
  change start + byteLength (Piece.flatten qs) + byteLength s.text ≤ _
  simp only [Piece.flatten_append, Piece.flatten_cons, Piece.text_slot, byteLength_append]
  omega

/-- The name that each token gets when `t` gets another group. -/
def regroupedName (t : Token) (group : Option String) (u : Token) : Option String :=
  if u.start = t.start then some (Name.join ⟨t.baseKey, group⟩) else none

theorem regroupedName_eq_some {group : Option String} {name : String}
    (h : regroupedName t group u = some name) : name = Name.join ⟨t.baseKey, group⟩ := by
  unfold regroupedName at h
  split at h
  · exact (Option.some.inj h).symm
  · exact absurd h (by simp)

/-- **A change of group puts one slot in the place of another**, and nothing else is read anew. -/
theorem exists_scan_regroup (cursor : Nat) {group : Option String}
    (ht : t ∈ (Parsed.ofText text).tokens.toList)
    (hgroup : ∀ g, group = some g → isNumeral g.toList) :
    ∃ qs rs, t = t.slot.token (byteLength (Piece.flatten qs)) (Piece.bases qs) ∧
      scan text.toList = qs ++ .slot t.slot :: rs ∧
      scan ((Parsed.ofText text).regroup cursor t group).text.toList =
        qs ++ .slot (t.slot.renamed (Name.join ⟨t.baseKey, group⟩)) :: rs := by
  have hraw := isRawName_join ht hgroup
  obtain ⟨pre, post, htokens⟩ := List.append_of_mem ht
  obtain ⟨qs, s, rs, hscan, -, htoken⟩ := exists_split_of_tokensOf htokens
  rw [Nat.zero_add, List.append_nil] at htoken
  obtain rfl : s = t.slot := by rw [htoken]; rfl
  refine ⟨qs, rs, htoken, hscan, ?_⟩
  have hrewrite : scan ((Parsed.ofText text).regroup cursor t group).text.toList =
      (Segment.locate 0 [] (scan text.toList)).map
        (Segment.newPiece (regroupedName t group)) :=
    scan_rewrite fun u _ name hname => regroupedName_eq_some hname ▸ hraw
  have hnew : regroupedName t group t = some (Name.join ⟨t.baseKey, group⟩) := if_pos rfl
  have hstart : t.start = byteLength (Piece.flatten qs) := congrArg Token.start htoken
  rw [hrewrite, hscan, locate_append, List.map_append, locate_slot, List.map_cons, Nat.zero_add,
    List.append_nil, ← htoken, map_newPiece_of_none, map_newPiece_of_none, Segment.newPiece,
    Token.newSlot, hnew, Option.elim_some]
  · -- the tokens behind start after `t` ends
    intro u hu
    have hle := start_le_of_mem_tokensOf hu
    rw [← hstart] at hle
    change t.span.stop ≤ u.start at hle
    have hlt : t.start < t.span.stop := t.start_lt_stop
    exact if_neg (by omega)
  · -- those before end where it starts
    intro u hu
    have hle := stop_le_of_mem_tokensOf hu
    have hlt : u.start < u.span.stop := u.start_lt_stop
    exact if_neg (by omega)

/-- The text in which a token has another group is the same before it and behind it. -/
theorem Parsed.toList_regroup {group : Option String} {pre post : List Char} (cursor : Nat)
    (ht : t ∈ (ofText text).tokens.toList) (hgroup : ∀ g, group = some g → isNumeral g.toList)
    (htext : text.toList = pre ++ (t.slot.text ++ post)) (hstart : t.start = byteLength pre) :
    ((ofText text).regroup cursor t group).text.toList =
      pre ++ ((t.slot.withName (Name.join ⟨t.baseKey, group⟩)).text ++ post) := by
  obtain ⟨qs, rs, htoken, hscan, hscan'⟩ := exists_scan_regroup cursor ht hgroup
  have hold : text.toList = Piece.flatten qs ++ (t.slot.text ++ Piece.flatten rs) := by
    rw [← flatten_scan text.toList, hscan]
    simp
  have hplace : byteLength pre = byteLength (Piece.flatten qs) :=
    hstart.symm.trans (congrArg Token.start htoken)
  obtain ⟨rfl, hrest⟩ := append_inj_of_byteLength_eq (htext.symm.trans hold) hplace
  rw [List.append_cancel_left hrest, ← flatten_scan (regroup _ _ _ _).text.toList, hscan',
    Piece.flatten_append, Piece.flatten_cons, Piece.text_slot, Slot.renamed, text_ofInner]
  rfl

/-- What is read in the place of a token that gets another group: it stands at the same place and
between the same white space, before tokens with the same names. Only if its own base key stays, the
tokens behind it keep their keys. -/
structure Regrouping (p q : Parsed) (group : Option String) (t u : Token) : Prop where
  start : u.start = t.start
  inner : u.slot.inner = t.slot.lead ++ (Name.join ⟨t.baseKey, group⟩).toList ++ t.slot.trail
  name : u.name = Name.split (trim (Name.join ⟨t.baseKey, group⟩))
  names : p.Replaces Token.SameName q t u
  keys : u.baseKey = t.baseKey →
    u.key = t.key ∧ p.Replaces (fun v w => v.SameName w ∧ w.key = v.key) q t u

theorem exists_regrouping (cursor : Nat) {group : Option String}
    (ht : t ∈ (Parsed.ofText text).tokens.toList)
    (hgroup : ∀ g, group = some g → isNumeral g.toList) :
    ∃ u, Regrouping (.ofText text) (.ofText ((Parsed.ofText text).regroup cursor t group).text)
      group t u := by
  obtain ⟨qs, rs, htoken, hscan, hscan'⟩ := exists_scan_regroup cursor ht hgroup
  obtain ⟨pre, hlocated⟩ := Parsed.located_of_mem ht
  have hreplaces {r : Token → Token → Prop} := Parsed.replaces_of_scan (r := r) hscan hscan'
  rw [← htoken] at hreplaces
  have htbase : t.slot.base = t.baseKey := (congrArg Token.baseKey htoken).symm
  refine ⟨(t.slot.renamed (Name.join ⟨t.baseKey, group⟩)).token (byteLength (Piece.flatten qs))
    (Piece.bases qs), (congrArg Token.start htoken).symm, Slot.inner_ofInner _, ?_, hreplaces ?_,
    fun hbase => ⟨?_, hreplaces ?_⟩⟩
  · rw [Token.name_eq]
    change Name.ofChars (t.slot.renamed _).name = _
    rw [hlocated.proper.name_renamed (isRawName_join ht hgroup), Name.split]
  · exact fun s a a' more => .of_slot rfl
  · rw [Slot.baseKey_token] at hbase
    rw [Token.key, Token.key, Slot.baseKey_token, hbase, Slot.occurrence_token, hbase, ← htbase]
    exact congrArg (occurrenceKey t.slot.base) (congrArg Token.occurrence htoken).symm
  · rw [Slot.baseKey_token] at hbase
    rw [hbase, htbase]
    exact fun s a a' more => ⟨.of_slot rfl, rfl⟩

/-- **A token that gets another group gets nothing else**, and the others stay as they are, if its
new name is read as it was put together. -/
theorem Regrouping.of_readBack {p q : Parsed} {group : Option String} (h : Regrouping p q group t u)
    (hread : Name.split (trim (Name.join ⟨t.baseKey, group⟩)) = ⟨t.baseKey, group⟩) :
    u.baseKey = t.baseKey ∧ u.group? = group ∧ u.key = t.key ∧
      p.Replaces (fun v w => v.SameName w ∧ w.key = v.key) q t u := by
  obtain ⟨hbase, hgroup⟩ := Token.name_eq_iff.1 (h.name.trans hread)
  exact ⟨hbase, hgroup, h.keys hbase⟩

/-- The cursor stays in a token that gets another group. -/
theorem Regrouping.touches {p q : Parsed} {group : Option String} (h : Regrouping p q group t u)
    {cursor : Nat} (hcursor : t.cursorSpan.touches cursor) :
    u.cursorSpan.touches
      (moveCursor t.nameSpan (byteLength (Name.join ⟨t.baseKey, group⟩).toList) cursor) := by
  have hname : t.nameSpan.size = byteLength t.slot.name := Nat.add_sub_cancel_left _ _
  have hstart : t.nameSpan.start = t.start + 2 + byteLength t.slot.lead := rfl
  have hstop : t.nameSpan.stop = t.nameSpan.start + byteLength t.slot.name := rfl
  rw [Token.touches_iff, Slot.inner] at hcursor
  rw [Token.touches_iff, h.start, h.inner]
  simp only [byteLength_append] at hcursor ⊢
  unfold moveCursor
  split
  · omega
  · split
    · omega
    · omega

/-! ## Joining a group -/

theorem assignGroup?_of_tokenAt? {cursor : Nat} (group : Nat)
    (h : (Parsed.ofText text).tokenAt? cursor = some t) :
    assignGroup? text cursor group =
      some ((Parsed.ofText text).regroup cursor t (some (decimal group))) := by
  rw [assignGroup?, h]
  rfl

/-- **Putting a token into a group touches that token only.** It is done exactly when there is a
token under the cursor. The new text is read as the same literal runs and tokens, up to the group of
this one, which is the given one; the others keep their names and all tokens keep their keys. The
token at the new cursor is the same one. -/
theorem assignment_touches_one_token (text : String) (cursor group : Nat) :
    (assignGroup? text cursor group = none ↔
        ∀ t ∈ (Parsed.ofText text).tokens.toList, ¬ t.cursorSpan.touches cursor) ∧
      ∀ t ∈ (Parsed.ofText text).tokens.toList, t.cursorSpan.touches cursor →
        ∃ e u, assignGroup? text cursor group = some e ∧
          (Parsed.ofText text).Replaces (fun v w => v.SameName w ∧ w.key = v.key)
            (.ofText e.text) t u ∧
          u.baseKey = t.baseKey ∧ u.key = t.key ∧ u.group? = some (decimal group) ∧
          (Parsed.ofText e.text).tokenAt? e.cursor = some u := by
  constructor
  · rw [assignGroup?, Option.map_eq_none_iff, Parsed.tokenAt?_eq_none_iff]
  · intro t ht hcursor
    have hg := isNumeral_decimal group
    obtain ⟨u, hu⟩ := exists_regrouping cursor ht fun g h => Option.some.inj h ▸ hg
    obtain ⟨hbase, hgroup, hkey, hreplaces⟩ := hu.of_readBack (split_trim_join ht hg)
    refine ⟨_, u, assignGroup?_of_tokenAt? group (Parsed.tokenAt?_eq_some_iff.2 ⟨ht, hcursor⟩),
      hreplaces, hbase, hkey, hgroup, Parsed.tokenAt?_eq_some_iff.2 ⟨?_, ?_⟩⟩
    · exact hreplaces.mem
    · exact hu.touches hcursor

/-- A token between white space gets a group in the place of the one it has. -/
theorem assignment_of_padded_token :
    let mark (name : String) := String.ofList (braced name.toList)
    ∃ t ∈ (Parsed.ofText (mark "a" ++ mark " a_7 ")).tokens.toList,
      t.cursorSpan.touches 10 ∧ t.key = "a-1" ∧
        ∃ u, (Parsed.ofText (mark "a" ++ mark " a_12 ")).tokenAt? 12 = some u ∧ u.key = "a-1" ∧
          u.group? = some "12" := by
  intro mark
  obtain ⟨t, ht, hcursor, hkey⟩ : ∃ t ∈ (Parsed.ofText (mark "a" ++ mark " a_7 ")).tokens.toList,
      t.cursorSpan.touches 10 ∧ t.key = "a-1" := by decide +kernel
  obtain ⟨e, u, he, -, -, hukey, hgroup, hfound⟩ :=
    (assignment_touches_one_token (mark "a" ++ mark " a_7 ") 10 12).2 t ht hcursor
  have hedit : assignGroup? (mark "a" ++ mark " a_7 ") 10 12 =
      some ⟨mark "a" ++ mark " a_12 ", 12, "a-1", some "12"⟩ := by decide +kernel
  obtain rfl := Option.some.inj (he.symm.trans hedit)
  refine ⟨t, ht, hcursor, hkey, u, hfound, hukey.trans hkey, hgroup.trans ?_⟩
  decide +kernel

end Regroup

/-! ## Leaving a group -/

theorem length_trim_le (s : String) : (trim s).toList.length ≤ s.toList.length := by
  have hstart := congrArg List.length (takeWhile_append_trimStart s.toList)
  have hend := congrArg List.length (trimEnd_append_takeWhile (trimStart s.toList))
  rw [List.length_append] at hstart hend
  rw [trim, String.toList_ofList]
  omega

namespace Name

/-- A base key that is read back when it stands alone between double braces: there is no white space
at its ends, and it does not end in what reads as a group. -/
structure StandsAlone (base : String) : Prop where
  trim_eq : trim base = base
  group_eq_none : (split base).group = none

/-- A base key stands alone if it is read as a base key, whatever group is read behind it. -/
theorem standsAlone_iff {base : String} : StandsAlone base ↔ (split (trim base)).base = base := by
  constructor
  · rintro ⟨htrim, hgroup⟩
    rw [htrim, split_of_group_eq_none hgroup]
  · intro h
    obtain ⟨rest, hrest⟩ := exists_append_of_ofChars (trim base).toList
    change (trim base).toList = (split (trim base)).base.toList ++ rest at hrest
    rw [h] at hrest
    -- nothing can follow, since trimming made the base key no longer
    have hle := length_trim_le base
    rw [hrest, List.length_append] at hle
    obtain rfl : rest = [] := List.length_eq_zero_iff.1 (by omega)
    have htrim : trim base = base := String.toList_inj.1 (by rw [hrest, List.append_nil])
    refine ⟨htrim, ?_⟩
    have hjoin := join_split base
    rw [htrim] at h
    cases hgroup : (split base).group with
    | none => rfl
    | some g =>
      have hlength := congrArg (fun s : String => s.toList.length) hjoin
      simp [join, hgroup, h] at hlength

theorem StandsAlone.split_trim {base : String} (h : StandsAlone base) :
    split (trim base) = ⟨base, none⟩ := by
  rw [h.trim_eq, split_of_group_eq_none h.group_eq_none]

end Name

section Leave

variable {text : String} {cursor : Nat} {t u : Token} {e : GroupEdit}

theorem removeGroup?_eq_some (h : removeGroup? text cursor = some e) :
    ∃ t, (Parsed.ofText text).tokenAt? cursor = some t ∧ t.group? ≠ none ∧
      e = (Parsed.ofText text).regroup cursor t none := by
  obtain ⟨t, ht, hgroup⟩ := Option.bind_eq_some_iff.1 h
  obtain ⟨group, hsome, rfl⟩ := Option.map_eq_some_iff.1 hgroup
  exact ⟨t, ht, by simp [hsome], rfl⟩

theorem removeGroup?_of_tokenAt? (h : (Parsed.ofText text).tokenAt? cursor = some t)
    (hgroup : t.group? ≠ none) :
    removeGroup? text cursor = some ((Parsed.ofText text).regroup cursor t none) := by
  obtain ⟨group, hsome⟩ := Option.ne_none_iff_exists'.1 hgroup
  rw [removeGroup?, h, Option.bind_some, hsome]
  rfl

theorem removeGroup?_eq_none (h : (Parsed.ofText text).tokenAt? cursor = some t)
    (hgroup : t.group? = none) : removeGroup? text cursor = none := by
  rw [removeGroup?, h, Option.bind_some, hgroup]
  rfl

/-- A token that is taken out of its group keeps its base key if that stands alone. -/
theorem Regrouping.baseKey_eq_iff {p q : Parsed} (h : Regrouping p q none t u) :
    u.baseKey = t.baseKey ↔ Name.StandsAlone t.baseKey := by
  have hname : u.name = Name.split (trim t.baseKey) := h.name
  rw [Name.standsAlone_iff, Token.baseKey, hname]

/-- **A token that is taken out of its group changes nothing else if and only if its base key stands
alone.** -/
theorem Regrouping.leaves_iff {p q : Parsed} (h : Regrouping p q none t u) :
    (p.Replaces (fun v w => v.SameName w ∧ w.key = v.key) q t u ∧
        u.baseKey = t.baseKey ∧ u.key = t.key ∧ u.group? = none) ↔
      Name.StandsAlone t.baseKey := by
  constructor
  · rintro ⟨-, hbase, -⟩
    exact h.baseKey_eq_iff.1 hbase
  · intro halone
    obtain ⟨hbase, hgroup, hkey, hreplaces⟩ := h.of_readBack halone.split_trim
    exact ⟨hreplaces, hbase, hkey, hgroup⟩

end Leave

end Stencil.Placeholder
