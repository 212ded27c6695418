import Stencil.Proofs.Linkage.GroupValues
import Stencil.Proofs.Placeholder.Regrouping
import Stencil.Proofs.Session.Commands

/-!
# Joining and leaving groups in a session

The commands that change the group of the token under a cursor rewrite its name in the shown text.
A token that joins a group takes over its value; one that leaves keeps its own, if the rest of its
name is read as it was.

* `Session.exists_assignGroup`, `Session.exists_removeGroup` — what the two commands do;
* `Session.joiner_adopts_value` — the values after a token has joined a group;
* `Session.SameValues` — every token of the shown text has the value that it had before;
* `Session.only_group_left_iff` — a token leaves its group and nothing else changes if and only if
  its base key stands alone.
-/

namespace Stencil

open Placeholder

/-! ## Content -/

theorem Localized.resolve_withLanguage (content : Localized) {text : String}
    (h : text ≠ "" ∨ ∃ s, content = .plain s) (language : String) :
    (content.withLanguage language text).resolve language = text := by
  cases content with
  | plain s => rfl
  | localized m =>
    have hne : text ≠ "" := h.resolve_right (by simp)
    simp [withLanguage, resolve, hne]

namespace Session

/-- The selections of the template that is edited. -/
def selections (s : Session) : Selections := s.activeTemplate?.elim .empty (·.selections)

variable {s s' : Session} {t : Template} {u : Token} {cursor : Nat}

theorem selections_eq (h : s.activeTemplate? = some t) : s.selections = t.selections := by
  rw [selections, h]
  rfl

theorem contentText_eq (h : s.activeTemplate? = some t) : s.contentText = t.text s.language := by
  rw [contentText, h]
  rfl

theorem resolve?_eq (h : s.activeTemplate? = some t) (key base : String) :
    s.resolve? key base =
      resolveOccurrence? t.selections s.library.defaults key base s.language := by
  rw [resolve?, h]
  rfl

/-- Only the content of a template has tokens. -/
theorem exists_activeTemplate (hu : u ∈ s.parsed.tokens.toList) :
    ∃ t, s.activeTemplate? = some t := by
  cases h : s.activeTemplate? with
  | none =>
    rw [parsed, contentText, h] at hu
    exact absurd rfl (Parsed.ne_empty_of_mem hu)
  | some t => exact ⟨t, rfl⟩

@[simp] theorem defaults_replace (s : Session) (now : Int) (kind : EditKind) (t t' : Template) :
    (s.replace now kind t t').library.defaults = s.library.defaults := by
  change (s.putTemplate t').library.defaults = _
  unfold putTemplate
  cases s.active <;> rfl

/-- `s'` is left when another text and other selections have been put into the active template. -/
structure Rewrites (s s' : Session) (text : String) (picked : Selections) : Prop where
  contentText : s'.contentText = text
  selections : s'.selections = picked
  resolve? : ∀ key base,
    s'.resolve? key base = resolveOccurrence? picked s.library.defaults key base s.language

theorem Rewrites.parsed {text : String} {picked : Selections} (h : s.Rewrites s' text picked) :
    s'.parsed = .ofText text := by
  rw [Session.parsed, h.contentText]

/-- A change to another text and other selections is carried out. -/
theorem exists_rewrites (h : s.activeTemplate? = some t) {text : String} (htext : text ≠ "")
    {selections : Selections} {α : Type} {answer : α} (now : Int) (kind : EditKind)
    {change : String → Template → α × Template}
    (hchange : change s.language t =
      (answer, { withText t s.language text with selections })) :
    ∃ s', (Attempt.edit now kind change).answer s = .ok (answer, s') ∧
      s.Rewrites s' text selections := by
  have hactive := activeTemplate?_replace h
    (show ({ withText t s.language text with selections } : Template).id = t.id from rfl) now kind
  refine ⟨_, by rw [answer_edit now kind change h, hchange], ?_, selections_eq hactive,
    fun key base => ?_⟩
  · rw [contentText_eq hactive]
    exact Localized.resolve_withLanguage t.content (.inl htext) s.language
  · rw [resolve?_eq hactive, defaults_replace]
    rfl

/-! ## The commands -/

/-- A token that joins a group is found again in the new text, and its group synchronised. -/
theorem syncJoined_regroup {text g : String} (cursor : Nat)
    (hu : u ∈ (Parsed.ofText text).tokens.toList) (hg : Text.isNumeral g.toList)
    (selections : Selections) :
    let e := (Parsed.ofText text).regroup cursor u (some g)
    syncJoined selections e =
      (selections.syncGroup (.ofText e.text) u.baseKey g (some e.key)).2 := by
  intro e
  obtain ⟨v, hv⟩ := exists_regrouping cursor hu fun g' hg' => Option.some.inj hg' ▸ hg
  obtain ⟨hbase, -, hkey, hreplaces⟩ := hv.of_readBack (split_trim_join hu hg)
  have hfind : (Parsed.ofText e.text).find? e.key = some v := by
    rw [show e.key = v.key from hkey.symm]
    exact Parsed.find?_key hreplaces.mem
  have hgroup : e.group = some g := rfl
  rw [syncJoined, hgroup, hfind]
  simp only [hbase]

/-- A text in which a token has another group is not empty. -/
theorem text_regroup_ne_empty {text : String} {group : Option String}
    (hu : u ∈ (Parsed.ofText text).tokens.toList)
    (hgroup : ∀ g, group = some g → Text.isNumeral g.toList) :
    ((Parsed.ofText text).regroup cursor u group).text ≠ "" := by
  obtain ⟨v, huv⟩ := exists_regrouping cursor hu hgroup
  exact Parsed.ne_empty_of_mem huv.names.mem

/-- **What putting the token under a cursor into a group does.** -/
theorem exists_assignGroup (hu : s.parsed.tokenAt? cursor = some u) (now : Int) (group : Nat) :
    let e := s.parsed.regroup cursor u (some (Text.decimal group))
    ∃ s', s.assignGroup now cursor group = .ok (some e.cursor, s') ∧
      s.Rewrites s' e.text (s.selections.syncGroup (.ofText e.text) u.baseKey
        (Text.decimal group) (some u.key)).2 := by
  intro e
  have hmem : u ∈ s.parsed.tokens.toList := Parsed.mem_of_tokenAt? hu
  have hg := Text.isNumeral_decimal group
  obtain ⟨t, ht⟩ := exists_activeTemplate hmem
  rw [assignGroup, Attempt.assignGroup, Attempt.answer_get_bind,
    assignGroup?_of_tokenAt? group hu]
  apply exists_rewrites ht (text_regroup_ne_empty hmem fun g h => Option.some.inj h ▸ hg)
  rw [selections_eq ht, syncJoined_regroup cursor hmem hg]
  rfl

/-- **What taking the token under a cursor out of its group does.** -/
theorem exists_removeGroup (hu : s.parsed.tokenAt? cursor = some u) (hgroup : u.group? ≠ none)
    (now : Int) :
    let e := s.parsed.regroup cursor u none
    ∃ s', s.removeGroup now cursor = .ok (some e.cursor, s') ∧
      s.Rewrites s' e.text s.selections := by
  intro e
  have hmem : u ∈ s.parsed.tokens.toList := Parsed.mem_of_tokenAt? hu
  obtain ⟨t, ht⟩ := exists_activeTemplate hmem
  rw [removeGroup, Attempt.removeGroup, Attempt.answer_get_bind,
    removeGroup?_of_tokenAt? hu hgroup]
  apply exists_rewrites ht (text_regroup_ne_empty hmem (by simp))
  rw [selections_eq ht]
  rfl

/-! ## Joining a group -/

/-- **A token that joins a group takes over its value.** The members are the tokens of the new text
in that group; they have the value of the first one other than the joiner that had any, or else that
of the joiner. Nothing else changes, so that every group that was uniform is so afterwards. -/
theorem joiner_adopts_value {s : Session} {t : Token} {cursor : Nat}
    (ht : t ∈ s.parsed.tokens.toList) (hcursor : t.cursorSpan.touches cursor) (now : Int)
    (group : Nat) :
    ∃ c s', s.assignGroup now cursor group = .ok (some c, s') ∧
      (∃ u ∈ s'.parsed.members t.baseKey (Text.decimal group), u.key = t.key) ∧
      Selections.Adopted s.selections s'.selections
        (s'.parsed.members t.baseKey (Text.decimal group)) t.key ∧
      ∀ base g, s.selections.Uniform (s.parsed.members base g) →
        s'.selections.Uniform (s'.parsed.members base g) := by
  have hg := Text.isNumeral_decimal group
  obtain ⟨s', hcommand, hafter⟩ :=
    exists_assignGroup (Parsed.tokenAt?_eq_some_iff.2 ⟨ht, hcursor⟩) now group
  obtain ⟨u, hu⟩ := exists_regrouping cursor ht fun g' hg' => Option.some.inj hg' ▸ hg
  obtain ⟨hbase, hgroup, hkey, hreplaces⟩ := hu.of_readBack (split_trim_join ht hg)
  have hmember := Parsed.mem_members.2 ⟨hreplaces.mem, hbase, hgroup⟩
  refine ⟨_, s', hcommand, ?_, ?_, fun base g hbefore => ?_⟩
  all_goals rw [hafter.parsed]
  · exact ⟨u, hmember, hkey⟩
  · rw [hafter.selections, ← hkey]
    exact Selections.adopted_syncGroup s.selections rfl hmember
  · rw [hafter.selections]
    exact hbefore.syncGroup_regroup ht hg _

/-- A token that has a value joins one with another value, and gives its own up. -/
theorem value_after_joining :
    let mark (name : String) := String.ofList (braced name.toList)
    let template : Template :=
      { id := "t"
        content := .plain (mark "color" ++ mark "color_1")
        selections := .ofList [("color-0", .plain "blue"), ("color-1", .plain "red")] }
    let s := start { templates := [template] } {} none
    ∃ t ∈ s.parsed.tokens.toList, t.cursorSpan.touches 3 ∧ t.key = "color-0" ∧
      ∃ c s', s.assignGroup 0 3 1 = .ok (some c, s') ∧
        s'.selections.get? "color-0" = some (.plain "red") := by
  intro mark template s
  obtain ⟨t, ht, hcursor, hbase, hkey⟩ : ∃ t ∈ s.parsed.tokens.toList,
      t.cursorSpan.touches 3 ∧ t.baseKey = "color" ∧ t.key = "color-0" := by decide +kernel
  obtain ⟨c, s', hcommand, ⟨u, hu, hukey⟩, hadopted, -⟩ := joiner_adopts_value ht hcursor 0 1
  refine ⟨t, ht, hcursor, hkey, c, s', hcommand, ?_⟩
  obtain rfl : s.perform 0 (.assignGroup 3 1) = s' := Attempt.left_of_answer hcommand
  have hothers : (((s.perform 0 (.assignGroup 3 1)).parsed.members "color" (Text.decimal 1)).filter
      (·.key ≠ "color-0")).map Token.key = ["color-1"] := by decide +kernel
  have hred : s.selections.get? "color-1" = some (.plain "red") := by rfl
  rw [hbase, hkey] at hadopted
  obtain ⟨value, ⟨m, hm, hvalue, -⟩, hall⟩ := hadopted.of_other (by decide +kernel)
  have hmkey : m.key = "color-1" := by
    have hmem : m.key ∈ _ := List.mem_map_of_mem hm
    rw [hothers] at hmem
    exact List.mem_singleton.1 hmem
  have hvalues := hall u (hbase ▸ hu)
  rw [hukey, hkey] at hvalues
  rw [hvalues, ← hvalue, hmkey, hred]

/-! ## Leaving a group -/

/-- Every token of the shown text has the value that it had before. -/
def SameValues (s s' : Session) : Prop :=
  List.Forall₂ (fun t u : Token => s'.resolve? u.key u.baseKey = s.resolve? t.key t.baseKey)
    s.parsed.tokens.toList s'.parsed.tokens.toList

/-- With the same selections, a key has the same value. -/
theorem Rewrites.resolve?_eq {text : String} (h : s.Rewrites s' text s.selections)
    (hu : u ∈ s.parsed.tokens.toList) (key base : String) :
    s'.resolve? key base = s.resolve? key base := by
  obtain ⟨t, ht⟩ := exists_activeTemplate hu
  rw [h.resolve?, Session.resolve?_eq ht, selections_eq ht]

/-- A session on a text in which one key has a value, and there are no defaults. -/
def withOnlyValue (text key : String) : Session :=
  start { templates :=
    [{ id := "t", content := .plain text, selections := .ofList [(key, .plain "x")] }] } {} none

theorem contentText_withOnlyValue (text key : String) :
    (withOnlyValue text key).contentText = text := by
  simp [withOnlyValue, start, contentText, activeTemplate?, Library.template?, Template.text,
    Localized.resolve]

theorem resolve?_withOnlyValue (text key k base : String) :
    (withOnlyValue text key).resolve? k base = if k = key then some "x" else none := by
  by_cases hk : k = key <;>
    simp [withOnlyValue, start, resolve?, activeTemplate?, Library.template?, resolveOccurrence?,
      OrderedMap.ofList, OrderedMap.insertAll, Localized.resolve, hk]

/-- **A token leaves its group and nothing else changes if and only if its base key stands alone.**
The literal runs and the names of the other tokens stay in any case; but if the rest of the name is
read as another base key, tokens are numbered anew. Then there are sessions in which the values are
not the ones before. -/
theorem only_group_left_iff {text : String} {cursor : Nat} {e : GroupEdit}
    (h : removeGroup? text cursor = some e) :
    ∃ t u, (Parsed.ofText text).tokenAt? cursor = some t ∧
      (Parsed.ofText text).Replaces Token.SameName (.ofText e.text) t u ∧
      ((Parsed.ofText text).Replaces (fun v w => v.SameName w ∧ w.key = v.key) (.ofText e.text)
            t u ∧ u.baseKey = t.baseKey ∧ u.key = t.key ∧ u.group? = none ↔
        Name.StandsAlone t.baseKey) ∧
      (∀ (s : Session) (now : Int), s.contentText = text →
        ∃ s', s.removeGroup now cursor = .ok (some e.cursor, s') ∧ s'.contentText = e.text) ∧
      ((∀ (s : Session) (now : Int) c s', s.contentText = text →
          s.removeGroup now cursor = .ok (c, s') → s.SameValues s') ↔
        Name.StandsAlone t.baseKey) := by
  obtain ⟨t, ht, hgroup, rfl⟩ := removeGroup?_eq_some h
  have htmem := Parsed.mem_of_tokenAt? ht
  obtain ⟨u, hu⟩ := exists_regrouping cursor htmem
    (show ∀ g : String, none = some g → Text.isNumeral g.toList from nofun)
  refine ⟨t, u, ht, hu.names, hu.leaves_iff, ?_, ?_, ?_⟩
  · rintro s now rfl
    obtain ⟨s', hcommand, hafter⟩ := exists_removeGroup ht hgroup now
    exact ⟨s', hcommand, hafter.contentText⟩
  · intro hsame
    -- where `t` has the only value, the token in its place has it only under the same key
    have htext := contentText_withOnlyValue text t.key
    obtain ⟨s', hcommand, hafter⟩ :=
      exists_removeGroup (s := withOnlyValue text t.key) (htext.symm ▸ ht) hgroup 0
    have hvalues := hsame _ 0 _ s' htext hcommand
    rw [SameValues, hafter.parsed, parsed, htext] at hvalues
    have hvalue := hu.names.rel_of_forall₂_tokens hvalues
    rw [hafter.resolve?_eq (htext.symm ▸ htmem), resolve?_withOnlyValue, resolve?_withOnlyValue,
      if_pos rfl] at hvalue
    have hkey : u.key = t.key := by simpa using hvalue
    exact hu.baseKey_eq_iff.1 (occurrenceKey_inj (Parsed.baseKey_ne_empty hu.names.mem)
      (Parsed.baseKey_ne_empty htmem) hkey).1
  · rintro halone s now c s' rfl hcommand
    obtain ⟨s'', hcommand', hafter⟩ := exists_removeGroup ht hgroup now
    obtain ⟨-, rfl⟩ := Prod.mk.inj (Except.ok.inj (hcommand.symm.trans hcommand'))
    obtain ⟨hreplaces, hbase, hkey, -⟩ := hu.leaves_iff.2 halone
    have hkeys : List.Forall₂ (fun v w : Token => w.key = v.key ∧ w.baseKey = v.baseKey)
        s.parsed.tokens.toList s'.parsed.tokens.toList := by
      rw [hafter.parsed]
      refine (hreplaces.imp ?_).forall₂_tokens (fun v => ⟨rfl, rfl⟩) ⟨hkey, hbase⟩
      exact fun v w hvw => ⟨hvw.2, hvw.1.baseKey⟩
    refine hkeys.imp fun v w hvw => ?_
    rw [hafter.resolve?_eq htmem, hvw.1, hvw.2]

/-- A token between white space leaves its group, and keeps its value. -/
theorem values_after_leaving :
    let mark (name : String) := String.ofList (braced name.toList)
    let template : Template :=
      { id := "t"
        content := .plain (mark "a" ++ mark " a_7 ")
        selections := .ofList [("a-0", .plain "red"), ("a-1", .plain "blue")] }
    let s := start { templates := [template] } {} none
    ∃ s', s.removeGroup 0 10 = .ok (some 9, s') ∧ s'.contentText = mark "a" ++ mark " a " ∧
      s.SameValues s' := by
  intro mark template s
  have he : removeGroup? (mark "a" ++ mark " a_7 ") 10 =
      some ⟨mark "a" ++ mark " a ", 9, "a-1", none⟩ := by decide +kernel
  have htext : s.contentText = mark "a" ++ mark " a_7 " := by decide +kernel
  obtain ⟨t, u, ht, -, -, hdone, hvalues⟩ := only_group_left_iff he
  obtain ⟨s', hcommand, htext'⟩ := hdone s 0 htext
  refine ⟨s', hcommand, htext', hvalues.2 ?_ s 0 _ s' htext hcommand⟩
  have hbase : ((Parsed.ofText (mark "a" ++ mark " a_7 ")).tokenAt? 10).map Token.baseKey =
      some "a" := by decide +kernel
  rw [ht] at hbase
  rw [Option.some.inj hbase]
  exact ⟨by decide +kernel, by decide +kernel⟩

/-- **A token that leaves its group does not always keep its base key.** Without its group,
`color_1_2` is read as `color` in group `1`, and the token behind it, which is `color` as well, gets
another number: neither has the value that it had. -/
theorem leaving_may_renumber :
    let mark (name : String) := String.ofList (braced name.toList)
    let template : Template :=
      { id := "t"
        content := .plain (mark "color_1_2" ++ " " ++ mark "color")
        selections := .ofList [("color_1-0", .plain "red"), ("color-0", .plain "blue")] }
    let s := start { templates := [template] } {} none
    let after := s.perform 0 (.removeGroup 3)
    removeGroup? s.contentText 3 =
        some ⟨mark "color_1" ++ " " ++ mark "color", 9, "color_1-0", none⟩ ∧
      after.contentText = mark "color_1" ++ " " ++ mark "color" ∧
      s.parsed.tokens.toList.map (fun t => (t.baseKey, t.group?, t.key)) =
        [("color_1", some "2", "color_1-0"), ("color", none, "color-0")] ∧
      after.parsed.tokens.toList.map (fun t => (t.baseKey, t.group?, t.key)) =
        [("color", some "1", "color-0"), ("color", none, "color-1")] ∧
      s.render = "red blue" ∧ after.render = "blue " ++ mark "color" := by
  decide +kernel

end Session

end Stencil
