import Stencil.Proofs.Library.Commands
import Stencil.Proofs.Placeholder.Regrouping

/-!
# Placeholders for banks

A bank comes under a key that a placeholder can name. Wherever such a placeholder is written, with a
group or without one, it is read as it was written, and it stays one for the bank when its group is
changed.

* `Name.ReadsBack.exists_readsAt` — a placeholder that is read as it was written;
* `Parsed.ReadsAt.regroup` — it stays one for its base key when its group is changed;
* `Library.accepted_iff` — the keys that banks come under, and `Library.accepted_keys_referenced` —
  all of it for these keys.
-/

namespace Stencil

open Text Placeholder

namespace Placeholder

/-- The placeholder for a base key and a group, without white space. -/
def Name.slot (n : Name) : Slot := ⟨[], n.join.toList, []⟩

/-- The placeholder as it is written. -/
def Name.placeholder (n : Name) : String := "\x7b\x7b" ++ n.join ++ "\x7d\x7d"

/-- A placeholder for `n` is written at a place, and `t` is the token that is read from it. -/
structure Parsed.ReadsAt (p : Parsed) (start : Nat) (n : Name) (t : Token) : Prop where
  mem : t ∈ p.tokens.toList
  start : t.start = start
  slot : t.slot = n.slot
  baseKey : t.baseKey = n.base
  group : t.group? = n.group

section Placeholder

variable {n : Name} {before after : String} {t : Token} {group : Option String} {cursor : Nat}

theorem toList_placeholder_between (n : Name) (before after : String) :
    (before ++ n.placeholder ++ after).toList =
      before.toList ++ (n.slot.text ++ after.toList) := by
  simp [Name.placeholder, Name.slot, Slot.text, Slot.inner]

namespace Name.ReadsBack

theorem ofInner_join (h : n.ReadsBack) : Slot.ofInner n.join.toList = n.slot :=
  Slot.ofInner_bare h.isRawName h.trim_join

/-- **A placeholder is read as it was written**, whatever text it stands in. -/
theorem exists_readsAt (h : n.ReadsBack) (before after : String) :
    ∃ t, (Parsed.ofText (before ++ n.placeholder ++ after)).ReadsAt before.utf8ByteSize n t := by
  have hproper : n.slot.Proper := h.ofInner_join ▸ h.isRawName.proper
  obtain ⟨t, ht, hslot, hstart⟩ :=
    Parsed.exists_token hproper (toList_placeholder_between n before after)
  have hname : t.name = n := by
    rw [t.name_eq, hslot]
    exact h.split_join
  obtain ⟨hbase, hgroup⟩ := Token.name_eq_iff.1 hname
  exact ⟨t, ht, hstart.trans (byteLength_toList before), hslot, hbase, hgroup⟩

end Name.ReadsBack

/-! ## Other groups -/

/-- A placeholder that gets another group is read with that group at the same place. -/
theorem Parsed.ReadsAt.of_regrouping {p : Parsed} {text : String} {u : Token} {start : Nat}
    (h : p.ReadsAt start n t) (hu : Regrouping p (ofText text) group t u)
    (hread : Name.ReadsBack ⟨n.base, group⟩) :
    (ofText text).ReadsAt start ⟨n.base, group⟩ u := by
  have hsplit : Name.split (trim (Name.join ⟨t.baseKey, group⟩)) = ⟨t.baseKey, group⟩ := by
    rw [h.baseKey, hread.trim_join, hread.split_join]
  obtain ⟨hbase, hgroup, -⟩ := hu.of_readBack hsplit
  have hinner : u.slot.inner = (Name.join ⟨n.base, group⟩).toList := by
    rw [hu.inner, h.baseKey, h.slot]
    exact List.append_nil _
  obtain ⟨pre, hlocated⟩ := located_of_mem hu.names.mem
  have hslot : u.slot = Name.slot ⟨n.base, group⟩ := by
    rw [← hlocated.proper.parts, hinner, hread.ofInner_join]
  exact ⟨hu.names.mem, hu.start.trans h.start, hslot, hbase.trans h.baseKey, hgroup⟩

/-- What a change of group makes of a placeholder: it is one for `n` at the same place, and the
cursor is in the token that is read from it. -/
structure GroupEdit.Writes (e : GroupEdit) (before after : String) (n : Name) : Prop where
  text : e.text = before ++ n.placeholder ++ after
  group : e.group = n.group
  token : ∃ u, (Parsed.ofText e.text).tokenAt? e.cursor = some u ∧
    (Parsed.ofText e.text).ReadsAt before.utf8ByteSize n u

/-- **A placeholder that gets another group is one for the same base key**, if it is read back with
that group. -/
theorem Parsed.ReadsAt.regroup
    (h : (ofText (before ++ n.placeholder ++ after)).ReadsAt before.utf8ByteSize n t)
    (hread : Name.ReadsBack ⟨n.base, group⟩) (hgroup : ∀ g, group = some g → isNumeral g.toList)
    (hcursor : t.cursorSpan.touches cursor) :
    ((ofText (before ++ n.placeholder ++ after)).regroup cursor t group).Writes before after
      ⟨n.base, group⟩ := by
  have htext := toList_placeholder_between n before after
  rw [← h.slot] at htext
  have hnew := toList_regroup cursor h.mem hgroup htext
    (h.start.trans (byteLength_toList before).symm)
  have hslot : t.slot.withName (Name.join ⟨n.base, group⟩) = Name.slot ⟨n.base, group⟩ := by
    rw [h.slot]
    rfl
  rw [h.baseKey, hslot, ← toList_placeholder_between] at hnew
  obtain ⟨u, hu⟩ := exists_regrouping cursor h.mem hgroup
  have hfound := tokenAt?_eq_some_iff.2 ⟨hu.names.mem, hu.touches hcursor⟩
  exact ⟨String.toList_inj.1 hnew, rfl, u, hfound, h.of_regrouping hu hread⟩

end Placeholder

end Placeholder

/-! ## Keys of banks -/

namespace Library

open Bank

variable {raw key : String}

/-- A bank comes under `key` when `raw` is typed for it: as a new bank, or as one that gets another
key. -/
def Accepted (raw key : String) : Prop :=
  (∃ l label category m, addBank l raw label category = .ok (key, m)) ∨
    ∃ l oldKey m, renameBank l oldKey raw = .ok (key, m)

/-- A bank comes under a key just if that is the usable one for what was typed. -/
theorem accepted_iff : Accepted raw key ↔ usableKey? raw = some key := by
  constructor
  · rintro (⟨l, label, category, m, h⟩ | ⟨l, oldKey, m, h⟩)
    · exact (addBank_eq_ok_iff.1 h).1
    · exact (renameBank_eq_ok_iff.1 h).1
  · intro h
    exact .inl ⟨{}, .empty, "", _, addBank_eq_ok_iff.2 ⟨h, List.not_mem_nil, rfl⟩⟩

/-- **Every key that a bank comes under can be named.** It is sanitized already. Its placeholder,
alone or with a group, is read as it was written between any two texts; and when the cursor is in
it, it can be put into every group, and out of the one it is in, and stays a placeholder for the
key. -/
theorem accepted_keys_referenced (h : Accepted raw key) :
    sanitizeKey key = key ∧
      ∀ (group : Option String) (before after : String),
        (∀ g, group = some g → isNumeral g.toList) →
        let text := before ++ Name.placeholder ⟨key, group⟩ ++ after
        ∃ t, (Parsed.ofText text).ReadsAt before.utf8ByteSize ⟨key, group⟩ t ∧
          ∀ cursor, t.cursorSpan.touches cursor →
            (∀ n, ∃ e, assignGroup? text cursor n = some e ∧
              e.Writes before after ⟨key, some (decimal n)⟩) ∧
            (group = none → removeGroup? text cursor = none) ∧
            (group ≠ none → ∃ e, removeGroup? text cursor = some e ∧
              e.Writes before after ⟨key, none⟩) := by
  obtain ⟨-, hkey⟩ := usableKey?_eq_some_iff.1 (accepted_iff.1 h)
  refine ⟨sanitizeKey_of_isSmallKeyChar hkey.isSmallKeyChar, fun group before after hgroup => ?_⟩
  intro text
  obtain ⟨t, ht⟩ := (hkey.baseReadsBack group hgroup).exists_readsAt before after
  refine ⟨t, ht, fun cursor hcursor => ?_⟩
  have hfound := Parsed.tokenAt?_eq_some_iff.2 ⟨ht.mem, hcursor⟩
  refine ⟨fun n => ?_, fun hnone => ?_, fun hsome => ?_⟩
  · have hnumeral : ∀ g, some (decimal n) = some g → isNumeral g.toList :=
      fun g hg => Option.some.inj hg ▸ isNumeral_decimal n
    exact ⟨_, assignGroup?_of_tokenAt? n hfound,
      ht.regroup (hkey.baseReadsBack _ hnumeral) hnumeral hcursor⟩
  · exact removeGroup?_eq_none hfound (ht.group.trans hnone)
  · have hnumeral : ∀ g : String, none = some g → isNumeral g.toList := by simp
    exact ⟨_, removeGroup?_of_tokenAt? hfound (ht.group ▸ hsome),
      ht.regroup (hkey.baseReadsBack _ hnumeral) hnumeral hcursor⟩

/-- A key with an underscore in it, and a placeholder for it with a group, behind two braces that no
others close and before two that close none. -/
theorem accepted_key_between_braces :
    let text := "\x7b\x7bx" ++ "\x7b\x7blight_mood_007\x7d\x7d" ++ "\x7d\x7d"
    Accepted " Light Mood " "light_mood" ∧ sanitizeKey "light_mood" = "light_mood" ∧
      (∃ t, (Parsed.ofText text).ReadsAt 3 ⟨"light_mood", some "007"⟩ t) ∧
      ∃ e, removeGroup? text 5 = some e ∧
        e.Writes "\x7b\x7bx" "\x7d\x7d" ⟨"light_mood", none⟩ := by
  intro text
  have haccepted : Accepted " Light Mood " "light_mood" := accepted_iff.2 (by decide +kernel)
  obtain ⟨hsanitized, hread⟩ := accepted_keys_referenced haccepted
  have hnumeral : ∀ g, some "007" = some g → isNumeral g.toList := by
    rintro g hg
    obtain rfl := Option.some.inj hg
    decide
  obtain ⟨t, ht, hedits⟩ := hread (some "007") "\x7b\x7bx" "\x7d\x7d" hnumeral
  have hcursor : t.cursorSpan.touches 5 := by
    rw [Token.touches_iff, ht.start, ht.slot]
    decide +kernel
  obtain ⟨-, -, hremoved⟩ := hedits 5 hcursor
  exact ⟨haccepted, hsanitized, ⟨t, ht⟩, hremoved (by simp)⟩

end Library

end Stencil
