import Stencil.Proofs.OrderedMap
import Stencil.Proofs.Session.Commands

/-!
# What a command leaves alone

A command on the active template fails, has nothing to do, or is carried out; only in the last case
anything changes, and then no more than the command is about.

* `Session.Reply`, `Session.reply` — what the user is told;
* `Localized.SameBut` — texts that are the same in all languages but one;
* `Session.InLane` — what a command that is carried out may change;
* `Session.Outcome` — what may come of a command: `outcome_edit` is the case of a change of the
  active template, `outcome_travel` that of a move in the history, and `outcome_perform` says it of
  every command.
-/

namespace Stencil

open Placeholder

/-! ## One language -/

theorem OrderedMap.filter_entries_insert {α : Type} (m : OrderedMap α) (key : String) (value : α) :
    (m.insert key value).entries.filter (·.1 ≠ key) = m.entries.filter (·.1 ≠ key) := by
  unfold insert
  split
  · have hsame : ((fun e : String × α => decide (e.1 ≠ key)) ∘
        fun e => if e.1 = key then (key, value) else e) = fun e => decide (e.1 ≠ key) := by
      funext e
      by_cases he : e.1 = key <;> simp [he]
    rw [List.filter_map, hsame]
    refine (List.map_congr_left fun e he => ?_).trans (List.map_id _)
    rw [if_neg (by simpa using (List.mem_filter.1 he).2), id]
  · simp

/-- The texts are the same, in the same order, in every language but the given one; one without
languages may be another one without languages. -/
def Localized.SameBut (language : String) : Localized → Localized → Prop
  | plain _, plain _ => True
  | localized m, localized n =>
    n.entries.filter (·.1 ≠ language) = m.entries.filter (·.1 ≠ language)
  | _, _ => False

theorem Localized.sameBut_withLanguage (c : Localized) (language text : String) :
    c.SameBut language (c.withLanguage language text) := by
  cases c with
  | plain _ => trivial
  | localized m => exact OrderedMap.filter_entries_insert m language text

/-! ## The first template with an id -/

theorem Library.exists_split_of_template? {l : Library} {id : String} {t : Template}
    (h : l.template? id = some t) :
    ∃ pre post, l.templates = pre ++ t :: post ∧ t.id = id ∧ (∀ u ∈ pre, u.id ≠ id) ∧
      ∀ f, (l.modifyTemplate id f).templates = pre ++ f t :: post := by
  rw [template?] at h
  change ∃ pre post, _ ∧ _ ∧ _ ∧ ∀ f, modifyFirst id f l.templates = _
  generalize l.templates = ts at h ⊢
  induction ts with
  | nil => simp at h
  | cons u us ih =>
    by_cases hid : u.id = id
    · obtain rfl : u = t := by simpa [hid] using h
      exact ⟨[], us, rfl, hid, by simp, fun f => if_pos hid⟩
    · obtain ⟨pre, post, rfl, ht, hpre, hmodify⟩ := ih (by simpa [hid] using h)
      refine ⟨u :: pre, post, rfl, ht, List.forall_mem_cons.2 ⟨hid, hpre⟩, fun f => ?_⟩
      rw [modifyFirst, if_neg hid, hmodify, List.cons_append]

namespace Session

variable {s : Session} {t : Template} {α : Type}

/-! ## Replies -/

/-- What the user is told of a command. -/
inductive Reply where
  /-- It cannot be carried out. -/
  | failed (e : SessionError)
  /-- There is nothing to do. -/
  | nothing
  /-- It has been carried out. -/
  | done
deriving DecidableEq

/-- The reply in the result of a command, where some answers say that there was nothing to do. -/
def replyOf (answered : α → Bool) : Except SessionError (α × Session) → Reply
  | .error e => .failed e
  | .ok (answer, _) => if answered answer then .done else .nothing

/-- What the user is told of a command that is given to a session. -/
def reply (s : Session) (now : Int) : Command → Reply
  | .editContent text kind => replyOf (fun _ => true) (s.editContent now text kind)
  | .insertPlaceholder cursor key => replyOf (fun _ => true) (s.insertPlaceholder now cursor key)
  | .assignGroup cursor group => replyOf Option.isSome (s.assignGroup now cursor group)
  | .removeGroup cursor => replyOf Option.isSome (s.removeGroup now cursor)
  | .select key value => replyOf (fun _ => true) (s.select now key value)
  | .selectCustom key value => replyOf (fun _ => true) (s.selectCustom now key value)
  | .endTypingBurst | .setLanguage _ => .done
  | .undo => if s.undo.1 then .done else .nothing
  | .redo => if s.redo.1 then .done else .nothing

/-! ## Lanes -/

/-- What a command may do to the content: one on content or groups changes it in the language of the
session only, and one on selections does not change it. -/
def Command.ContentInLane (language : String) (before after : Localized) : Command → Prop
  | .editContent _ _ | .insertPlaceholder _ _ | .assignGroup _ _ | .removeGroup _ =>
    before.SameBut language after
  | .select _ _ | .selectCustom _ _ => after = before
  | .endTypingBurst | .setLanguage _ | .undo | .redo => True

/-- What a command may do to the rest of the library: a value that was typed is added at the end of
the bank of its occurrence, if it is not blank and the bank has none like it. -/
structure BanksInLane (s : Session) (c : Command) (l : Library) : Prop where
  defaults : l.defaults = s.library.defaults
  categories : l.categories = s.library.categories
  keys : l.banks.keys = s.library.banks.keys
  bank : ∀ k, l.banks.get? k = s.library.banks.get? k ∨
    ∃ key value b, c = .selectCustom key value ∧ s.baseKeyOf? key = some k ∧ ¬ value.isBlank ∧
      s.library.banks.get? k = some b ∧ ¬ b.hasOption value ∧
      l.banks.get? k = some { b with options := b.options ++ [value] }

/-- What a command that is carried out may change: content and selections of the first template with
the active id, the history, and the bank of a value that was typed. -/
structure InLane (s : Session) (c : Command) (s' : Session) : Prop where
  active : s'.active = s.active
  language : s'.language = s.language
  baseline : s'.baseline = s.baseline
  config : s'.config = s.config
  template : ∃ id pre t post x, s.active = some id ∧ s.library.templates = pre ++ t :: post ∧
    t.id = id ∧ (∀ u ∈ pre, u.id ≠ id) ∧
    s'.library.templates = pre ++ Snapshot.restore x t :: post ∧
    c.ContentInLane s.language t.content x.content
  banks : BanksInLane s c s'.library

/-- What may come of a command on the active template. -/
inductive Outcome (s : Session) (c : Command) : Reply → Session → Prop
  /-- It fails since there is no active template, and nothing has changed. -/
  | failed {e : SessionError} (h : s.activeTemplate = .error e) : Outcome s c (.failed e) s
  /-- There is nothing to do, and nothing has changed. -/
  | nothing : Outcome s c .nothing s
  /-- It is carried out, in its lane. -/
  | done {s' : Session} (h : InLane s c s') : Outcome s c .done s'

section Steps

variable {c : Command} {library : Library} {x : Snapshot}

theorem BanksInLane.refl (s : Session) (c : Command) : BanksInLane s c s.library :=
  ⟨rfl, rfl, rfl, fun _ => .inl rfl⟩

/-- Another content and other selections in the place of those of the active template are in the
lane of a command that may change the content in this way. -/
theorem inLane_putTemplate (ht : s.activeTemplate? = some t)
    (htemplates : library.templates = s.library.templates) (hbanks : BanksInLane s c library)
    (hcontent : c.ContentInLane s.language t.content x.content) (history : History) :
    InLane s c { ({ s with library } : Session).putTemplate (x.restore t) with history } := by
  obtain ⟨id, hactive, hid⟩ := activeTemplate?_eq_some_iff.1 ht
  have hid' : library.template? id = some t := (Library.template?_congr htemplates id).trans hid
  obtain ⟨pre, post, hsplit, htid, hpre, hmodify⟩ := Library.exists_split_of_template? hid'
  have hput : (({ s with library } : Session).putTemplate (x.restore t)).library =
      library.modifyTemplate id fun _ => x.restore t := by
    rw [putTemplate, hactive]
    rfl
  refine ⟨rfl, rfl, rfl, rfl, ?_, ?_⟩
  · refine ⟨id, pre, t, post, x, hactive, htemplates ▸ hsplit, htid, hpre, ?_, hcontent⟩
    change (putTemplate _ _).library.templates = _
    rw [hput, hmodify]
  · change BanksInLane s c (putTemplate _ _).library
    rw [hput]
    exact ⟨hbanks.defaults, hbanks.categories, hbanks.keys, hbanks.bank⟩

variable {now : Int} {kind : EditKind} {change : String → Template → α × Template}
  {answered : α → Bool}

/-- A change of the active template is carried out in its lane, also in a library that is the same
up to a bank. -/
theorem outcome_edit_of_some (ht : s.activeTemplate? = some t)
    (htemplates : library.templates = s.library.templates) (hbanks : BanksInLane s c library)
    (hanswered : answered (change s.language t).1)
    (hchange : ∃ x : Snapshot, (change s.language t).2 = x.restore t ∧
      c.ContentInLane s.language t.content x.content) :
    Outcome s c (replyOf answered ((Attempt.edit now kind change).answer { s with library }))
      ((Attempt.edit now kind change).left { s with library }) := by
  have hactive := (activeTemplate?_of_templates htemplates).trans ht
  obtain ⟨x, hx, hcontent⟩ := hchange
  rw [answer_edit now kind change hactive, left_edit now kind change hactive, replyOf,
    if_pos hanswered, hx]
  exact .done (inLane_putTemplate ht htemplates hbanks hcontent _)

/-- **A change of the active template** is carried out in its lane, or there is none. -/
theorem outcome_edit (hanswered : ∀ t, answered (change s.language t).1)
    (hchange : ∀ t, ∃ x : Snapshot, (change s.language t).2 = x.restore t ∧
      c.ContentInLane s.language t.content x.content) :
    Outcome s c (replyOf answered ((Attempt.edit now kind change).answer s))
      ((Attempt.edit now kind change).left s) := by
  cases ht : s.activeTemplate? with
  | none =>
    obtain ⟨e, he, hrun⟩ := run_edit_of_none now kind change ht
    rw [Attempt.answer_of_run_error hrun, Attempt.left_of_run_error hrun]
    exact .failed he
  | some t => exact outcome_edit_of_some ht rfl (.refl s c) (hanswered t) (hchange t)

/-- **A move in the history** restores content and selections, or there is nowhere to go. -/
theorem outcome_travel {move : History → Snapshot → Option (Snapshot × History)}
    (hcontent : ∀ before after, c.ContentInLane s.language before after) :
    Outcome s c (if (s.travel move).1 then .done else .nothing) (s.travel move).2 := by
  cases ht : s.activeTemplate? with
  | none =>
    rw [travel, ht]
    exact .nothing
  | some t =>
    cases hmove : move s.history (.of t) with
    | none =>
      rw [travel_of_none ht hmove]
      exact .nothing
    | some found =>
      rw [travel_of_some ht hmove]
      exact .done (inLane_putTemplate ht rfl (.refl s c) (hcontent _ _) _)

end Steps

/-! ## Typed values -/

section Typed

variable {key base : String} {value : Localized}

theorem banksInLane_addCustomOption (hbase : s.baseKeyOf? key = some base) :
    BanksInLane s (.selectCustom key value) (s.library.addCustomOption base value).2 := by
  unfold Library.addCustomOption
  split
  · exact .refl s _
  · rename_i hblank
    split
    · rename_i b hb
      have hmem : base ∈ s.library.banks.keys := OrderedMap.mem_keys_of_get? hb
      refine ⟨rfl, rfl, by rw [OrderedMap.keys_insert, if_pos hmem], fun k => ?_⟩
      rw [OrderedMap.get?_insert]
      split
      · rename_i hk
        rw [hk, hb, Bank.pushOption]
        split
        · exact .inl rfl
        · rename_i hoption
          exact .inr ⟨key, value, b, rfl, hbase, hblank, rfl, hoption, rfl⟩
      · exact .inl rfl
    · exact .refl s _

/-- A value that was typed is picked when its bank has been changed. -/
theorem outcome_select_of_some {library : Library} (ht : s.activeTemplate? = some t)
    (htemplates : library.templates = s.library.templates)
    (hbanks : BanksInLane s (.selectCustom key value) library) (now : Int) :
    Outcome s (.selectCustom key value)
      (replyOf (fun _ => true) ((Attempt.select now key value).answer { s with library }))
      ((Attempt.select now key value).left { s with library }) :=
  outcome_edit_of_some ht htemplates hbanks rfl ⟨⟨t.content, _⟩, rfl, rfl⟩

theorem outcome_selectCustom (s : Session) (now : Int) (key : String) (value : Localized) :
    Outcome s (.selectCustom key value) (s.reply now (.selectCustom key value))
      (s.perform now (.selectCustom key value)) := by
  rw [reply, perform, selectCustom]
  cases ht : s.activeTemplate? with
  | none =>
    obtain ⟨e, he, hrun⟩ := run_selectCustom_of_none now key value ht
    rw [Attempt.answer_of_run_error hrun, Attempt.left_of_run_error hrun]
    exact .failed he
  | some t =>
    rw [Attempt.selectCustom, Attempt.answer_get_bind, Attempt.left_get_bind, activeTemplate_eq ht]
    cases hbase : s.baseKeyOf? key with
    | none => exact outcome_select_of_some ht rfl (.refl s _) now
    | some base =>
      exact outcome_select_of_some ht (s.library.templates_addCustomOption base value)
        (banksInLane_addCustomOption hbase) now

end Typed

/-! ## All commands -/

/-- **A command on content, groups or selections, an undo and a redo change nothing, or they are
carried out and change no more than they are about.** -/
theorem outcome_perform (s : Session) (now : Int) (c : Command)
    (hc : c.kind?.isSome ∨ c = .undo ∨ c = .redo) :
    Outcome s c (s.reply now c) (s.perform now c) := by
  cases c with
  | editContent text kind =>
    exact outcome_edit (fun _ => rfl) fun t => ⟨⟨_, _⟩, rfl, t.content.sameBut_withLanguage _ _⟩
  | insertPlaceholder cursor key =>
    exact outcome_edit (fun _ => rfl) fun t =>
      ⟨⟨_, t.selections⟩, rfl, t.content.sameBut_withLanguage _ _⟩
  | assignGroup cursor group =>
    rw [reply, perform, assignGroup, Attempt.assignGroup, Attempt.answer_get_bind,
      Attempt.left_get_bind]
    cases assignGroup? s.contentText cursor group with
    | none => exact .nothing
    | some e =>
      exact outcome_edit (fun _ => rfl) fun t => ⟨⟨_, _⟩, rfl, t.content.sameBut_withLanguage _ _⟩
  | removeGroup cursor =>
    rw [reply, perform, removeGroup, Attempt.removeGroup, Attempt.answer_get_bind,
      Attempt.left_get_bind]
    cases removeGroup? s.contentText cursor with
    | none => exact .nothing
    | some e =>
      exact outcome_edit (fun _ => rfl) fun t =>
        ⟨⟨_, t.selections⟩, rfl, t.content.sameBut_withLanguage _ _⟩
  | select key value => exact outcome_edit (fun _ => rfl) fun t => ⟨⟨t.content, _⟩, rfl, rfl⟩
  | selectCustom key value => exact outcome_selectCustom s now key value
  | endTypingBurst => simp [Command.kind?] at hc
  | setLanguage language => simp [Command.kind?] at hc
  | undo => exact outcome_travel fun _ _ => trivial
  | redo => exact outcome_travel fun _ _ => trivial

/-- A value is typed for a placeholder of the first of two templates with one id, and becomes the
last option of its bank. -/
theorem outcome_perform_of_typed_value :
    let mark (name : String) := String.ofList (Slot.text ⟨[], name.toList, []⟩)
    let s := start
      { templates := [{ id := "t", content := .plain (mark "color") },
          { id := "t", content := .plain (mark "size") }]
        banks := .ofList [("color", { options := [.plain "blue"] }), ("size", {})] } {} none
    let c : Command := .selectCustom "color-0" (.plain "red")
    (c.kind?.isSome ∨ c = .undo ∨ c = .redo) ∧ s.reply 0 c = .done ∧
      (s.perform 0 c).library.banks.values.map (·.options.length) = [2, 0] ∧
      Outcome s c (s.reply 0 c) (s.perform 0 c) := by
  intro mark s c
  have hc : c.kind?.isSome ∨ c = .undo ∨ c = .redo := .inl rfl
  exact ⟨hc, by decide +kernel, by decide +kernel, outcome_perform s 0 c hc⟩

end Session

end Stencil
