import Stencil.Bank.Commands
import Stencil.Filling
import Stencil.Proofs.Bank.Key
import Stencil.Proofs.Template.KeyRenaming

/-!
# Renamed banks

When a bank gets another key, the tokens that name it, the selections for them and the default of
the key come along.

* `renameBank_eq_ok_iff` — when a bank is renamed, and what comes of it;
* `Unused`, `Spelled` — a key that nothing in a library uses, and one whose selections are under
  keys as they are written;
* `Undisturbed` — nothing comes between a token and its value when a key is renamed;
  `undisturbed_of_unused` says that a key which nothing uses disturbs no token;
* `fills_renameBank` — the tokens of a library with a renamed bank, and their values;
  `fill?_renameBank_of_unused` is the case of a new key that nothing uses;
* `renameBank_renameBank` — a bank that is renamed forth and back.
-/

namespace Stencil.Library

open Placeholder Bank

variable {l m : Library} {key newKey raw k : String}

/-! ## The library with a renamed bank -/

/-- The library in which the bank under `key` has come under `newKey`. -/
def moveBank (l : Library) (key newKey : String) : Library :=
  { l with
    templates := l.templates.map (Template.renameKeys [(key, newKey)])
    banks := l.banks.mapKeys (renamedKey key newKey)
    defaults := moveDefault l.defaults key newKey }

theorem renameBank_eq_ok_iff :
    l.renameBank key raw = .ok (newKey, m) ↔
      usableKey? raw = some newKey ∧ key ∈ l.banks.keys ∧
        (newKey = key ∧ m = l ∨
          newKey ≠ key ∧ newKey ∉ l.banks.keys ∧ m = l.moveBank key newKey) := by
  rw [renameBank, Attempt.answer_eq_ok_iff, Attempt.renameBank]
  simp only [Attempt.run_lift_bind_eq_ok_iff, Attempt.run_get_bind, bankKey_eq_ok_iff,
    bank_eq_ok_iff]
  constructor
  · rintro ⟨used, husable, b, hb, h⟩
    have hkey : key ∈ l.banks.keys := OrderedMap.mem_keys_of_get? hb
    split at h
    · rename_i hself
      cases h
      exact ⟨husable, hkey, .inl ⟨hself, rfl⟩⟩
    · rename_i hne
      obtain ⟨hfree, ⟨⟩⟩ := Attempt.run_throw_ite_eq_ok_iff.1 h
      exact ⟨husable, hkey, .inr ⟨hne, mt OrderedMap.contains_iff.2 hfree, rfl⟩⟩
  · rintro ⟨husable, hkey, hcase⟩
    obtain ⟨b, hb⟩ := OrderedMap.mem_keys_iff.1 hkey
    refine ⟨newKey, husable, b, hb, ?_⟩
    rcases hcase with ⟨rfl, rfl⟩ | ⟨hne, hfree, rfl⟩
    · rw [if_pos rfl]
      rfl
    · rw [if_neg hne]
      exact Attempt.run_throw_ite_eq_ok_iff.2 ⟨mt OrderedMap.contains_iff.1 hfree, rfl⟩

/-- The default of a renamed bank is under the new key; a default that was there is lost. -/
theorem get?_moveDefault (defaults : Defaults) (key newKey k : String) :
    (moveDefault defaults key newKey).get? k =
      if key ∈ defaults.keys then
        if k = newKey then defaults.get? key else if k = key then none else defaults.get? k
      else defaults.get? k := by
  rw [moveDefault]
  cases hkey : defaults.get? key with
  | none => rw [if_neg (OrderedMap.get?_eq_none_iff.1 hkey)]
  | some value =>
    rw [if_pos (OrderedMap.mem_keys_of_get? hkey)]
    simp

/-! ## Keys that nothing uses -/

/-- There is no default under the key, no token names it, and no selection is under it or under an
occurrence key of it. -/
structure Unused (l : Library) (key : String) : Prop where
  default : key ∉ l.defaults.keys
  token : ∀ t ∈ l.templates, ∀ text ∈ t.content.texts,
    ∀ u ∈ (Parsed.ofText text).tokens.toList, u.baseKey ≠ key
  selection : ∀ t ∈ l.templates, ∀ k ∈ t.selections.keys,
    k ≠ key ∧ ∀ index, splitOccurrenceKey? k ≠ some (key, index)

/-- The selections for a key are under its occurrence keys as these are written. -/
def Spelled (l : Library) (key : String) : Prop :=
  ∀ t ∈ l.templates, ∀ k ∈ t.selections.keys, ∀ index,
    splitOccurrenceKey? k = some (key, index) → k = occurrenceKey key index

/-! ## Values of tokens -/

/-- What a reader sees in the place of a token. -/
def fill? (l : Library) (t : Template) (u : Token) (reader : String) : Option String :=
  resolveOccurrence? t.selections l.defaults u.key u.baseKey reader

/-- When `key` becomes `newKey`, nothing comes between a token and its value, where the token `v` is
read in the place of the token `u`. -/
structure Undisturbed (l : Library) (t : Template) (key newKey : String) (u v : Token) : Prop where
  /-- The selection of `u`, and no other one, comes under the key of `v`. -/
  selection : ∀ k ∈ t.selections.keys, renameSelectionKey [(key, newKey)] k = v.key ↔ k = u.key
  /-- The token comes to no default that it did not have. -/
  noDefault : u.baseKey = key → newKey ∈ l.defaults.keys → key ∈ l.defaults.keys
  /-- Its default is not replaced. -/
  ownDefault : u.baseKey = newKey → key ∉ l.defaults.keys

section Fills

variable {t : Template} {u v : Token}

/-- **A token that is not disturbed shows what it showed.** -/
theorem fill?_moveBank (h : Undisturbed l t key newKey u v) (huv : u.Rebased key newKey v)
    (reader : String) :
    (l.moveBank key newKey).fill? (t.renameKeys [(key, newKey)]) v reader = l.fill? t u reader := by
  have hselection : (t.renameKeys [(key, newKey)]).selections.get? v.key =
      t.selections.get? u.key := OrderedMap.get?_mapKeys_of_unique h.selection
  have hdefault : (l.moveBank key newKey).defaults.get? v.baseKey =
      l.defaults.get? u.baseKey := by
    change (moveDefault l.defaults key newKey).get? v.baseKey = _
    rw [get?_moveDefault, huv.baseKey, renamedKey]
    by_cases hu : u.baseKey = key
    · rw [if_pos hu, if_pos rfl, hu]
      split
      · rfl
      · rename_i hnone
        rw [OrderedMap.get?_eq_none_iff.2 hnone, OrderedMap.get?_eq_none_iff]
        exact fun hnew => hnone (h.noDefault hu hnew)
    · rw [if_neg hu, if_neg hu]
      split
      · rename_i hsome
        rw [if_neg fun hnew => h.ownDefault hnew hsome]
      · rfl
  rw [fill?, fill?, resolveOccurrence?, resolveOccurrence?, hselection, hdefault]

/-- No token of a template names an unused key. -/
theorem Unused.baseKey_ne (hunused : l.Unused newKey) (ht : t ∈ l.templates) {language : String}
    (hu : u ∈ t.tokens language) : u.baseKey ≠ newKey := by
  obtain ⟨text, htext, hmem⟩ := Template.exists_text_of_mem_tokens hu
  exact hunused.token t ht text htext u hmem

/-- The selection for a token comes under the new key of the token. -/
theorem renameSelectionKey_key (hdash : '-' ∉ key.toList) (hempty : u.baseKey ≠ "")
    (hlimit : u.occurrence < indexLimit) :
    renameSelectionKey [(key, newKey)] u.key =
      occurrenceKey (renamedKey key newKey u.baseKey) u.occurrence := by
  have hself : u.key ≠ key := fun heq => hdash (heq ▸ dash_mem_occurrenceKey _ _)
  have hsplit : splitOccurrenceKey? u.key = some (u.baseKey, u.occurrence) :=
    splitOccurrenceKey?_occurrenceKey hempty hlimit
  by_cases hown : u.baseKey = key
  · rw [renameSelectionKey_of_split hself (hown ▸ hsplit), hown, renamedKey_self]
  · have hother : ∀ index, splitOccurrenceKey? u.key ≠ some (key, index) := by
      intro index heq
      exact hown (Prod.mk.inj (Option.some.inj (hsplit.symm.trans heq))).1
    rw [renameSelectionKey_of_unrelated hself hother, renamedKey_of_ne hown, Token.key]

/-- A selection that comes under the new key of a token is the selection for the token. -/
theorem eq_key_of_renameSelectionKey (hnew : Nameable newKey)
    (hspelled : ∀ index, splitOccurrenceKey? k = some (key, index) → k = occurrenceKey key index)
    (hunused : ∀ index, splitOccurrenceKey? k ≠ some (newKey, index)) (hbase : u.baseKey ≠ newKey)
    (hempty : u.baseKey ≠ "") (hlimit : u.occurrence < indexLimit)
    (hmoved : renameSelectionKey [(key, newKey)] k =
      occurrenceKey (renamedKey key newKey u.baseKey) u.occurrence) : k = u.key := by
  rcases renameSelectionKey_cases key newKey k with
    ⟨-, hrenamed⟩ | ⟨-, index, hindex, hrenamed⟩ | ⟨-, -, hrenamed⟩
  · exact absurd (hrenamed.symm.trans hmoved ▸ dash_mem_occurrenceKey _ _) hnew.dash_notMem
  · have hown : u.baseKey = key := by
      by_contra hne
      rw [hrenamed, renamedKey_of_ne hne] at hmoved
      exact hbase (occurrenceKey_inj hnew.ne_empty hempty hmoved).1.symm
    rw [hrenamed, hown, renamedKey_self] at hmoved
    obtain ⟨-, rfl⟩ := occurrenceKey_inj hnew.ne_empty hnew.ne_empty hmoved
    rw [hspelled _ hindex, Token.key, hown]
  · have hother : u.baseKey ≠ key := by
      intro heq
      rw [hrenamed, heq, renamedKey_self] at hmoved
      refine hunused u.occurrence ?_
      rw [hmoved, splitOccurrenceKey?_occurrenceKey hnew.ne_empty hlimit]
    rw [← hrenamed, hmoved, renamedKey_of_ne hother, Token.key]

/-- **A key that nothing uses disturbs no token that keeps its number.** -/
theorem undisturbed_of_unused (hnew : Nameable newKey) (hunused : l.Unused newKey)
    (hspelled : l.Spelled key) (hdash : '-' ∉ key.toList) (ht : t ∈ l.templates)
    {language : String} (hu : u ∈ t.tokens language) (hlimit : u.occurrence < indexLimit)
    (huv : u.Rebased key newKey v) (hnumber : v.occurrence = u.occurrence) :
    Undisturbed l t key newKey u v := by
  have hbase : u.baseKey ≠ newKey := hunused.baseKey_ne ht hu
  have hempty : u.baseKey ≠ "" := Parsed.baseKey_ne_empty hu
  refine ⟨fun k hk => ?_, fun _ hdefault => absurd hdefault hunused.default,
    fun heq => absurd heq hbase⟩
  rw [Token.key, huv.baseKey, hnumber]
  constructor
  · exact eq_key_of_renameSelectionKey hnew (hspelled t ht k hk) (hunused.selection t ht k hk).2
      hbase hempty hlimit
  · rintro rfl
    exact renameSelectionKey_key hdash hempty hlimit

end Fills

/-- What is kept of a token `u` of a template `t` when a library `l` becomes `m` by a rename of
`key` to `newKey`, where `v` is read in its place. -/
structure KeepsToken (l m : Library) (key newKey : String) (t t' : Template) (u v : Token) :
    Prop where
  /-- It is read again with its new base key and its group. -/
  rebased : u.Rebased key newKey v
  /-- It shows what it showed, if it is not disturbed. -/
  fill : (newKey ≠ key → Undisturbed l t key newKey u v) →
    ∀ reader, m.fill? t' v reader = l.fill? t u reader

/-- **Renaming a bank keeps the tokens of all templates in all languages**, and it keeps what they
show, unless a token is disturbed by what is under the new key already. -/
theorem fills_renameBank (h : l.renameBank key raw = .ok (newKey, m)) :
    List.Forall₂
      (fun t t' => ∀ language, List.Forall₂ (KeepsToken l m key newKey t t')
        (t.tokens language) (t'.tokens language))
      l.templates m.templates := by
  obtain ⟨husable, -, hcase⟩ := renameBank_eq_ok_iff.1 h
  have hnew : Nameable newKey := (usableKey?_eq_some_iff.1 husable).2
  rcases hcase with ⟨rfl, rfl⟩ | ⟨hne, -, rfl⟩
  · refine List.forall₂_same.2 fun t _ language => List.forall₂_same.2 fun u _ => ?_
    refine ⟨⟨?_, rfl⟩, fun _ _ => rfl⟩
    by_cases hself : u.baseKey = newKey
    · rw [hself, renamedKey_self]
    · rw [renamedKey_of_ne hself]
  · refine List.forall₂_map_right_iff.2 (List.forall₂_same.2 fun t _ language => ?_)
    rw [Template.tokens_renameKeys]
    exact (forall₂_rebased hnew.baseReadsBack).imp fun u v huv =>
      ⟨huv, fun hundisturbed => fill?_moveBank (hundisturbed hne) huv⟩

/-- A bank `color` with a default, and two tokens of which one has a selection. -/
theorem fills_renameBank_of_color :
    let mark (name : String) := String.ofList (braced name.toList)
    let l : Library :=
      { templates := [{ id := "t", content := .plain (mark "color" ++ " " ++ mark "color_1")
                        selections := .ofList [("color-1", .plain "red")] }]
        banks := .ofList [("color", {})]
        defaults := .ofList [("color", .plain "any")] }
    let m := l.moveBank "color" "hue"
    let shown (l : Library) := l.templates.map fun t => (t.tokens "en").map (l.fill? t · "en")
    l.renameBank "color" " Hue " = .ok ("hue", m) ∧
      shown l = [[some "any", some "red"]] ∧ shown m = [[some "any", some "red"]] ∧
      List.Forall₂
        (fun t t' => ∀ language, List.Forall₂ (KeepsToken l m "color" "hue" t t')
          (t.tokens language) (t'.tokens language))
        l.templates m.templates := by
  intro mark l m shown
  have hok : l.renameBank "color" " Hue " = .ok ("hue", m) :=
    renameBank_eq_ok_iff.2
      ⟨by decide +kernel, by decide +kernel, .inr ⟨by decide, by decide +kernel, rfl⟩⟩
  exact ⟨hok, by decide +kernel, by decide +kernel, fills_renameBank hok⟩

/-- **Renaming a bank may change what a token shows.** A renamed token is counted after one that has
the new key already; a selection that no token read is read, be it under the new key or under a key
with a leading zero; a default under the new key is taken over, or it is replaced. -/
theorem fills_not_always_kept :
    let mark (name : String) := String.ofList (braced name.toList)
    let texts (entries : List (String × String)) : OrderedMap Localized :=
      .ofList (entries.map fun e => (e.1, .plain e.2))
    let library (names : List String) (picked defaults : List (String × String)) : Library :=
      { templates := [{ id := "t", content := .plain (String.join (names.map mark))
                        selections := texts picked }]
        banks := .ofList [("color", {})]
        defaults := texts defaults }
    let shown (l : Library) := l.templates.map fun t => (t.tokens "en").map (l.fill? t · "en")
    let renamed (l : Library) := (l.renameBank "color" "hue").toOption.map fun r => shown r.2
    let counted := library ["hue", "color"] [("hue-0", "A"), ("color-0", "B")] []
    let stale := library ["color"] [("color-0", "B"), ("hue-0", "stale")] []
    let spelled := library ["color"] [("color-0", "B"), ("color-00", "stale")] []
    let lent := library ["color"] [] [("hue", "D")]
    let replaced := library ["hue"] [] [("hue", "D"), ("color", "E")]
    (shown counted = [[some "A", some "B"]] ∧ renamed counted = some [[some "B", none]]) ∧
      (shown stale = [[some "B"]] ∧ renamed stale = some [[some "stale"]]) ∧
      (shown spelled = [[some "B"]] ∧ renamed spelled = some [[some "stale"]]) ∧
      (shown lent = [[none]] ∧ renamed lent = some [[some "D"]]) ∧
      (shown replaced = [[some "D"]] ∧ renamed replaced = some [[some "E"]]) := by
  decide +kernel

/-- **Renaming a bank to a key that nothing uses changes nothing that is shown**, in a language in
which there are not more tokens than can be numbered. -/
theorem fill?_renameBank_of_unused (h : l.renameBank key raw = .ok (newKey, m))
    (hunused : l.Unused newKey) (hspelled : l.Spelled key) (hdash : '-' ∉ key.toList) :
    List.Forall₂
      (fun t t' => ∀ language, (∀ u ∈ t.tokens language, u.occurrence < indexLimit) →
        List.Forall₂ (fun u v => ∀ reader, m.fill? t' v reader = l.fill? t u reader)
          (t.tokens language) (t'.tokens language))
      l.templates m.templates := by
  obtain ⟨husable, -, hcase⟩ := renameBank_eq_ok_iff.1 h
  have hnew : Nameable newKey := (usableKey?_eq_some_iff.1 husable).2
  rcases hcase with ⟨rfl, rfl⟩ | ⟨-, -, rfl⟩
  · exact List.forall₂_same.2 fun t _ language _ => List.forall₂_same.2 fun u _ _ => rfl
  · refine List.forall₂_map_right_iff.2 (List.forall₂_same.2 fun t ht language hlimit => ?_)
    have hrebased : List.Forall₂ (fun u v : Token => u.Rebased key newKey v ∧
        v.occurrence = u.occurrence) (t.tokens language) _ :=
      forall₂_rebased_of_unused hnew.baseReadsBack fun u hu => hunused.baseKey_ne ht hu
    rw [Template.tokens_renameKeys]
    refine ((List.forall₂_and_left _ _).2 ⟨fun u hu => hu, hrebased⟩).imp ?_
    rintro u v ⟨hu, huv, hnumber⟩
    exact fill?_moveBank
      (undisturbed_of_unused hnew hunused hspelled hdash ht hu (hlimit u hu) huv hnumber) huv

/-! ## Forth and back -/

/-- A selection comes back to its key. -/
theorem renameSelectionKey_renameSelectionKey (hnew : Nameable newKey)
    (hspelled : ∀ index, splitOccurrenceKey? k = some (key, index) → k = occurrenceKey key index)
    (hunused : k ≠ newKey ∧ ∀ index, splitOccurrenceKey? k ≠ some (newKey, index)) :
    renameSelectionKey [(newKey, key)] (renameSelectionKey [(key, newKey)] k) = k := by
  rcases renameSelectionKey_cases key newKey k with
    ⟨rfl, hrenamed⟩ | ⟨-, index, hindex, hrenamed⟩ | ⟨-, -, hrenamed⟩
  · rw [hrenamed, renameSelectionKey_self]
  · have hlimit : index < indexLimit := by
      simpa using (Option.filter_eq_some_iff.1 hindex).2
    have hne : occurrenceKey newKey index ≠ newKey := fun heq =>
      hnew.dash_notMem (heq ▸ dash_mem_occurrenceKey newKey index)
    rw [hrenamed, renameSelectionKey_of_split hne
      (splitOccurrenceKey?_occurrenceKey hnew.ne_empty hlimit), ← hspelled index hindex]
  · rw [hrenamed, renameSelectionKey_of_unrelated hunused.1 hunused.2]

/-- A default comes back to its key. -/
theorem get?_moveDefault_moveDefault {defaults : Defaults} (key : String)
    (hunused : newKey ∉ defaults.keys) (k : String) :
    (moveDefault (moveDefault defaults key newKey) newKey key).get? k = defaults.get? k := by
  have hnone : defaults.get? newKey = none := OrderedMap.get?_eq_none_iff.2 hunused
  have hmoved := get?_moveDefault defaults key newKey
  by_cases hkey : key ∈ defaults.keys
  · have hmem : newKey ∈ (moveDefault defaults key newKey).keys := by
      obtain ⟨value, hvalue⟩ := OrderedMap.mem_keys_iff.1 hkey
      refine OrderedMap.mem_keys_iff.2 ⟨value, ?_⟩
      rw [hmoved, if_pos hkey, if_pos rfl, hvalue]
    rw [get?_moveDefault, if_pos hmem]
    by_cases hk : k = key
    · rw [if_pos hk, hmoved, if_pos hkey, if_pos rfl, hk]
    · rw [if_neg hk]
      split
      · rename_i hk'
        rw [hk', hnone]
      · rename_i hk'
        rw [hmoved, if_pos hkey, if_neg hk', if_neg hk]
  · have hmem : newKey ∉ (moveDefault defaults key newKey).keys := by
      rw [← OrderedMap.get?_eq_none_iff, hmoved, if_neg hkey, hnone]
    rw [get?_moveDefault, if_neg hmem, hmoved, if_neg hkey]

theorem templates_moveBank_moveBank (hnew : Nameable newKey) (hunused : l.Unused newKey)
    (hspelled : l.Spelled key) :
    ((l.moveBank key newKey).moveBank newKey key).templates = l.templates := by
  refine (List.map_map ..).trans ((List.map_congr_left fun t ht => ?_).trans (List.map_id _))
  refine Template.renameKeys_renameKeys (fun s hs => ?_) fun k hk => ?_
  · exact renameBases_renameBases hnew.baseReadsBack (hunused.token t ht s hs)
  · exact renameSelectionKey_renameSelectionKey hnew (hspelled t ht k hk)
      (hunused.selection t ht k hk)

theorem banks_moveBank_moveBank (key : String) (hfree : newKey ∉ l.banks.keys) :
    ((l.moveBank key newKey).moveBank newKey key).banks = l.banks := by
  refine OrderedMap.mapKeys_mapKeys fun k hk => ?_
  by_cases hkey : k = key
  · rw [hkey, renamedKey_self, renamedKey_self]
  · have hnew : k ≠ newKey := fun heq => hfree (heq ▸ hk)
    rw [renamedKey_of_ne hkey, renamedKey_of_ne hnew]

/-- **A bank that is renamed to a key which nothing uses, and back, leaves the library as it was**:
every template, every bank at its place, and every default. -/
theorem renameBank_renameBank (hkey : Nameable key) (hnew : Nameable newKey) (hne : key ≠ newKey)
    (hbank : key ∈ l.banks.keys) (hfree : newKey ∉ l.banks.keys) (hunused : l.Unused newKey)
    (hspelled : l.Spelled key) :
    ∃ m l', l.renameBank key newKey = .ok (newKey, m) ∧ m.renameBank newKey key = .ok (key, l') ∧
      l'.templates = l.templates ∧ l'.banks = l.banks ∧
      (∀ k, l'.defaults.get? k = l.defaults.get? k) ∧ l'.categories = l.categories ∧ l' ≈ l := by
  have hbank' : newKey ∈ (l.moveBank key newKey).banks.keys :=
    OrderedMap.mem_keys_mapKeys.2 ⟨key, hbank, renamedKey_self key newKey⟩
  have hfree' : key ∉ (l.moveBank key newKey).banks.keys := by
    intro hmem
    obtain ⟨k, hk, hrenamed⟩ := OrderedMap.mem_keys_mapKeys.1 hmem
    by_cases hself : k = key
    · rw [hself, renamedKey_self] at hrenamed
      exact hne hrenamed.symm
    · rw [renamedKey_of_ne hself] at hrenamed
      exact hself hrenamed
  have htemplates := templates_moveBank_moveBank hnew hunused hspelled
  have hbanks := banks_moveBank_moveBank key hfree
  have hdefaults := get?_moveDefault_moveDefault key hunused.default
  refine ⟨l.moveBank key newKey, (l.moveBank key newKey).moveBank newKey key,
    renameBank_eq_ok_iff.2 ⟨hnew.usableKey?_eq, hbank, .inr ⟨hne.symm, hfree, rfl⟩⟩,
    renameBank_eq_ok_iff.2 ⟨hkey.usableKey?_eq, hbank', .inr ⟨hne, hfree', rfl⟩⟩,
    htemplates, hbanks, hdefaults, rfl, ?_⟩
  refine ⟨htemplates ▸ AllAlike.refl _, hbanks ▸ Setoid.refl _, fun k => ?_, Setoid.refl _⟩
  exact (hdefaults k).symm ▸ OrderedMap.Agree.refl (fun _ => Setoid.refl _) l.defaults k

/-- A bank between two others, with tokens in two languages, a selection for a token and one under
the bare key. -/
theorem renameBank_renameBank_of_color :
    let mark (name : String) := String.ofList (braced name.toList)
    let content := .ofList [("en", mark " color " ++ mark "color_1"), ("cn", mark "size")]
    let l : Library :=
      { templates := [{ id := "t", content := .localized content
                        selections := .ofList [("color-1", .plain "red"), ("color", .plain "x")] }]
        banks := .ofList [("size", {}), ("color", { category := "c" }), ("mood", {})]
        defaults := .ofList [("color", .plain "any"), ("size", .plain "big")] }
    ∃ m l', l.renameBank "color" "hue" = .ok ("hue", m) ∧ m.renameBank "hue" "color" =
        .ok ("color", l') ∧ l'.templates = l.templates ∧ l'.banks = l.banks ∧
      (∀ k, l'.defaults.get? k = l.defaults.get? k) ∧ l'.categories = l.categories ∧ l' ≈ l := by
  intro mark content l
  have hkeys : ∀ t ∈ l.templates, ∀ k ∈ t.selections.keys, k = "color-1" ∨ k = "color" := by
    decide +kernel
  have hindex : splitOccurrenceKey? "color-1" = some ("color", 1) := by decide +kernel
  have hbare : splitOccurrenceKey? "color" = none := by decide +kernel
  have hcolor : Nameable "color" :=
    ⟨List.all_eq_true.1 (by decide +kernel), ⟨'c', by decide +kernel, by decide⟩,
      by decide +kernel⟩
  have hhue : Nameable "hue" :=
    ⟨List.all_eq_true.1 (by decide +kernel), ⟨'h', by decide +kernel, by decide⟩,
      by decide +kernel⟩
  refine renameBank_renameBank hcolor hhue (by decide) (by decide +kernel) (by decide +kernel)
    ⟨by decide +kernel, by decide +kernel, ?_⟩ ?_
  · intro t ht k hk
    rcases hkeys t ht k hk with rfl | rfl
    · simp [hindex]
    · simp [hbare]
  · intro t ht k hk index hsplit
    rcases hkeys t ht k hk with rfl | rfl
    · obtain ⟨-, rfl⟩ := Prod.mk.inj (Option.some.inj (hindex.symm.trans hsplit))
      decide +kernel
    · simp [hbare] at hsplit

end Stencil.Library
