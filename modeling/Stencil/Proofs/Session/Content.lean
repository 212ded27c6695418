import Stencil.Proofs.Placeholder.Insertion
import Stencil.Proofs.Session.GroupCommands
import Stencil.Proofs.Session.Lane

/-!
# The content of a session

The text that is shown is the one that was written last, whatever the other languages have.

* `Localized.elsewhere` — the string of the other languages, which is shown in a language whose own
  is left empty: `Localized.resolve_withLanguage_eq`;
* `Session.edit_shows_text` — what an edit of the content leaves;
* `Session.insertion_adds_one_token` — what an inserted placeholder leaves.
-/

namespace Stencil

open Placeholder

/-! ## Other languages -/

/-- The entries with nonempty strings, after the string of one language has been emptied, are those
of the other languages. -/
theorem OrderedMap.filter_entries_insert_empty (m : OrderedMap String) (language : String) :
    (m.insert language "").entries.filter (·.2 ≠ "") =
      (m.erase language).entries.filter (·.2 ≠ "") := by
  have hentry : ∀ e ∈ (m.insert language "").entries,
      (decide (e.2 ≠ "") : Bool) = (decide (e.2 ≠ "") && decide (e.1 ≠ language)) := by
    intro e he
    have hvalue : (m.insert language "").get? e.1 = some e.2 := get?_eq_some_iff.2 he
    by_cases hlanguage : e.1 = language
    · rw [get?_insert, if_pos hlanguage] at hvalue
      simp [← Option.some.inj hvalue]
    · simp [hlanguage]
  have herase : (m.erase language).entries = m.entries.filter (·.1 ≠ language) := by
    show m.entries.filter (·.1 != language) = _
    apply List.filter_congr
    intro e _
    by_cases he : e.1 = language <;> simp [he]
  rw [List.filter_congr hentry, ← List.filter_filter, filter_entries_insert, herase]

namespace Localized

/-- The string that is shown in a language without one of its own: the first nonempty one among
those of the fallback languages and those of all others. A text without languages has none. -/
def elsewhere (t : Localized) (language : String) : String :=
  match t with
  | plain _ => ""
  | localized m => (localized (m.erase language)).resolve language

/-- **A language shows what is written for it, and the string of the others if that is empty.** -/
theorem resolve_withLanguage_eq (t : Localized) (language text : String) :
    (t.withLanguage language text).resolve language =
      if text = "" then t.elsewhere language else text := by
  split
  · rename_i htext
    subst htext
    cases t with
    | plain s => rfl
    | localized m =>
      have hget (l : String) : ((m.insert language "").get? l).filter (· ≠ "") =
          ((m.erase language).get? l).filter (· ≠ "") := by
        by_cases hl : l = language <;> simp [hl, Option.filter]
      have hvalues : (m.insert language "").values.filter (· ≠ "") =
          (m.erase language).values.filter (· ≠ "") := by
        have hentries := m.filter_entries_insert_empty language
        simp only [OrderedMap.values, List.filter_map]
        exact congrArg (List.map Prod.snd) hentries
      simp only [elsewhere, withLanguage, resolve]
      rw [← List.head?_filter, ← List.head?_filter, List.filter_append, List.filter_append,
        hvalues, List.filter_filterMap, List.filter_filterMap]
      simp only [hget]
  · rename_i htext
    exact resolve_withLanguage t (.inl htext) language

end Localized

/-! ## Edits -/

namespace Session

theorem editContent_eq {s : Session} {t : Template} (h : s.activeTemplate? = some t) (now : Int)
    (text : String) (kind : EditKind) :
    s.editContent now text kind = .ok ((), s.replace now kind t
      { withText t s.language text with selections := t.selections.syncAll (.ofText text) }) :=
  answer_edit now kind _ h

/-- **An edit of the content sets what is shown.** It is always carried out. If the text is left
empty, what is shown is the string of the other languages, as for every empty string. The other
languages keep their strings, and linked tokens of the text have the same value afterwards, or none
of them has one. -/
theorem edit_shows_text {s : Session} {t : Template} (h : s.activeTemplate? = some t) (now : Int)
    (text : String) (kind : EditKind) :
    ∃ s' t', s.editContent now text kind = .ok ((), s') ∧ s'.activeTemplate? = some t' ∧
      s'.contentText = (if text = "" then t.content.elsewhere s.language else text) ∧
      t.content.SameBut s.language t'.content ∧
      ∀ u ∈ (Parsed.ofText text).tokens.toList, ∀ v ∈ (Parsed.ofText text).tokens.toList,
        u.isLinkedWith v → t'.selections.get? u.key = t'.selections.get? v.key := by
  have hactive := activeTemplate?_replace h
    (show ({ withText t s.language text with
      selections := t.selections.syncAll (.ofText text) } : Template).id = t.id from rfl) now kind
  refine ⟨_, _, editContent_eq h now text kind, hactive, ?_, ?_, ?_⟩
  · rw [contentText_eq hactive]
    exact Localized.resolve_withLanguage_eq t.content s.language text
  · exact Localized.sameBut_withLanguage t.content s.language text
  · intro u hu v hv hlinked
    obtain ⟨group, hbase, hugroup, hvgroup⟩ := Token.isLinkedWith_iff.1 hlinked
    have humember : u ∈ (Parsed.ofText text).members u.baseKey group :=
      Parsed.mem_members.2 ⟨hu, rfl, hugroup⟩
    have hvmember : v ∈ (Parsed.ofText text).members u.baseKey group :=
      Parsed.mem_members.2 ⟨hv, hbase.symm, hvgroup⟩
    show (t.selections.syncAll (.ofText text)).get? u.key =
      (t.selections.syncAll (.ofText text)).get? v.key
    rw [Selections.get?_syncAll humember, Selections.get?_syncAll hvmember]

/-- In a language without a string of its own, an edit brings two tokens into one group: they have
the same value afterwards, and the other language keeps its string. -/
theorem text_after_edit :
    let mark (name : String) := String.ofList (braced name.toList)
    let template : Template :=
      { id := "t"
        content := .localized (.ofList [("en", mark "a_1")])
        selections := .ofList [("a-1", .plain "red")] }
    let s := start { templates := [template] } { locale := { language := "fr" } } none
    s.activeTemplate? = some template ∧ s.contentText = mark "a_1" ∧
      ∃ s' t', s.editContent 0 (mark "a_1" ++ mark " a_1 ") .typing = .ok ((), s') ∧
        s'.activeTemplate? = some t' ∧ s'.contentText = mark "a_1" ++ mark " a_1 " ∧
        template.content.SameBut "fr" t'.content ∧
        t'.selections.get? "a-0" = t'.selections.get? "a-1" := by
  intro mark template s
  have hactive : s.activeTemplate? = some template := rfl
  obtain ⟨s', t', hcommand, ht', htext, hcontent, hgroups⟩ :=
    edit_shows_text hactive 0 (mark "a_1" ++ mark " a_1 ") .typing
  refine ⟨hactive, by decide +kernel, s', t', hcommand, ht', htext.trans (if_neg (by decide)),
    hcontent, ?_⟩
  obtain ⟨u, hu, v, hv, hlinked, hukey, hvkey⟩ :
      ∃ u ∈ (Parsed.ofText (mark "a_1" ++ mark " a_1 ")).tokens.toList,
        ∃ v ∈ (Parsed.ofText (mark "a_1" ++ mark " a_1 ")).tokens.toList,
          u.isLinkedWith v ∧ u.key = "a-0" ∧ v.key = "a-1" := by decide +kernel
  rw [← hukey, ← hvkey]
  exact hgroups u hu v hv hlinked

/-- **An edit does not always show its text.** The string of the session's language is left empty,
and that of another language is shown, which has two tokens in one group; only the first of them has
a value. -/
theorem edit_may_show_other_language :
    let mark (name : String) := String.ofList (braced name.toList)
    let template : Template :=
      { id := "t"
        content := .localized (.ofList [("cn", "x"), ("en", mark "a_1" ++ mark "a_1")])
        selections := .ofList [("a-0", .plain "red")] }
    let s := start { templates := [template] } {} none
    s.activeTemplate? = some template ∧ s.contentText = "x" ∧
      ∃ s', s.editContent 0 "" .typing = .ok ((), s') ∧
        s'.contentText = mark "a_1" ++ mark "a_1" ∧ s'.contentText ≠ "" ∧
        ¬ s'.selections.InStep s'.parsed := by
  intro mark template s
  have hactive : s.activeTemplate? = some template := rfl
  refine ⟨hactive, by decide +kernel, _, editContent_eq hactive 0 "" .typing, ?_⟩
  decide +kernel

/-! ## Insertions -/

theorem ofList_insertedText (key : String) : String.ofList (insertedText key) =
    " " ++ String.ofList (braced (Text.trim key).toList) ++ " " := by
  rw [← String.toList_inj, insertedText, Slot.text_bare]
  simp

/-- **What inserting a placeholder does** to the two parts into which the shown text is cut. -/
theorem exists_insertPlaceholder {s : Session} {t : Template} (h : s.activeTemplate? = some t)
    (now : Int) {cursor : Nat} {before after : String}
    (hcut : Text.cutAt cursor s.contentText.toList = (before.toList, after.toList))
    (key : String) :
    let inserted := " " ++ String.ofList (braced (Text.trim key).toList) ++ " "
    ∃ s', s.insertPlaceholder now cursor key =
        .ok (before.utf8ByteSize + inserted.utf8ByteSize, s') ∧
      s.Rewrites s' (before ++ inserted ++ after) t.selections := by
  intro inserted
  have hinserted : inserted = String.ofList (insertedText key) := (ofList_insertedText key).symm
  have htext : before ++ inserted ++ after =
      String.ofList (before.toList ++ insertedText key ++ after.toList) := by
    rw [hinserted, String.ofList_append, String.ofList_append, String.ofList_toList,
      String.ofList_toList]
  have hne : before ++ inserted ++ after ≠ "" := by
    rw [htext, ← String.toList_inj.ne]
    simp [insertedText]
  apply exists_rewrites h hne
  rw [contentText_eq h] at hcut
  simp only [hcut]
  rw [← htext, hinserted, Text.byteLength_toList, Text.byteLength_eq_utf8ByteSize]
  rfl

/-- **An inserted placeholder is one more token.** It is put between the two parts into which the
shown text is cut at the last boundary that is not past the cursor, and the new cursor is at a
boundary behind it. The tokens that lie in one of the parts stay, and there are no others. -/
theorem insertion_adds_one_token {s : Session} {t : Template} (h : s.activeTemplate? = some t)
    (now : Int) (cursor : Nat) {key : String} (hkey : Text.trim key ≠ "")
    (hfree : ∀ c ∈ (Text.trim key).toList, c ≠ '\x7b' ∧ c ≠ '\x7d' ∧ c ≠ '\n') :
    let inserted := " " ++ String.ofList (braced (Text.trim key).toList) ++ " "
    ∃ before after s', s.contentText = before ++ after ∧
      IsGreatest {n | String.Pos.Raw.IsValid s.contentText ⟨n⟩ ∧
        n ≤ min cursor s.contentText.utf8ByteSize} before.utf8ByteSize ∧
      s.insertPlaceholder now cursor key =
        .ok (before.utf8ByteSize + inserted.utf8ByteSize, s') ∧
      s'.contentText = before ++ inserted ++ after ∧
      String.Pos.Raw.IsValid s'.contentText ⟨before.utf8ByteSize + inserted.utf8ByteSize⟩ ∧
      s'.parsed.tokens.toList.map Token.fullKey =
        (s.parsed.tokens.toList.filter (·.span.stop ≤ before.utf8ByteSize)).map Token.fullKey ++
          Text.trim key ::
            (s.parsed.tokens.toList.filter (before.utf8ByteSize ≤ ·.span.start)).map
              Token.fullKey := by
  intro inserted
  have hname : IsTrimmedName (Text.trim key) := ⟨hkey, trim_trim key, hfree⟩
  obtain ⟨before, after, hcut⟩ : ∃ before after : String,
      Text.cutAt cursor s.contentText.toList = (before.toList, after.toList) :=
    ⟨String.ofList (Text.cutAt cursor s.contentText.toList).1,
      String.ofList (Text.cutAt cursor s.contentText.toList).2, by simp⟩
  have hgreatest := Text.isGreatest_cutAt cursor s.contentText
  rw [hcut, Text.byteLength_toList] at hgreatest
  have htext : s.contentText = before ++ after := by
    have happend := Text.cutAt_append cursor s.contentText.toList
    rw [hcut] at happend
    rw [← String.toList_inj, String.toList_append, ← happend]
  obtain ⟨s', hcommand, hafter⟩ := exists_insertPlaceholder h now hcut key
  refine ⟨before, after, s', htext, hgreatest, hcommand, hafter.contentText, ?_, ?_⟩
  · rw [hafter.contentText, String.Pos.Raw.isValid_iff_exists_append]
    refine ⟨_, _, rfl, ?_⟩
    rw [← String.utf8ByteSize_append]
    rfl
  · rw [hafter.parsed, parsed, htext]
    exact Parsed.fullKeys_of_insertion hname _ _

/-- At a cursor inside of a character that takes two bytes, the token it stands in is cut through
before that character, and the one behind it stays. -/
theorem insertion_into_token :
    let mark (name : String) := String.ofList (braced name.toList)
    let template : Template := { id := "t", content := .plain (mark "é" ++ mark "b") }
    let s := start { templates := [template] } {} none
    s.parsed.tokens.toList.map Token.fullKey = ["é", "b"] ∧
      ∃ s', s.insertPlaceholder 0 3 " k_1 " = .ok (11, s') ∧
        s'.parsed.tokens.toList.map Token.fullKey = ["k_1", "b"] := by
  intro mark template s
  have hactive : s.activeTemplate? = some template := rfl
  have hname : IsTrimmedName (Text.trim " k_1 ") := by decide +kernel
  obtain ⟨before, after, s', -, -, hcommand, -, -, hkeys⟩ :=
    insertion_adds_one_token hactive 0 3 hname.ne_empty hname.free
  have hanswer : (s.insertPlaceholder 0 3 " k_1 ").toOption.map Prod.fst = some 11 := by
    decide +kernel
  have hsize : (" " ++ String.ofList (braced (Text.trim " k_1 ").toList) ++ " ").utf8ByteSize =
      9 := by decide +kernel
  rw [hsize] at hcommand
  rw [hcommand] at hanswer
  have hplace : before.utf8ByteSize = 2 := Nat.add_right_cancel (Option.some.inj hanswer)
  rw [hplace] at hcommand hkeys
  refine ⟨by decide +kernel, s', hcommand, hkeys.trans ?_⟩
  decide +kernel

end Session

end Stencil
