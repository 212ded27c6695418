import Mathlib.Data.List.Basic
import Stencil.Proofs.Session.GroupCommands

/-!
# Shown values

The content is shown in two ways: filled in as a whole, and value by value, where each token is
addressed by its key and looked up again.

* `Session.displayValue_key` — what is shown for the key of a token: its value, or itself as it is
  written;
* `Session.display` — a segment as it is shown on its own;
* `Session.render_eq_join_display` — the content filled in is its segments, each shown on its own.
-/

namespace Stencil.Session

open Placeholder

variable {s : Session} {t : Token}

/-- The key of a token is taken apart into what it was made of, and is that of no other token. So
what is looked up under it is the value of the token, or else the token itself. -/
theorem displayValue_key (ht : t ∈ s.parsed.tokens.toList) :
    s.displayValue t.key t.baseKey = (s.resolve? t.key t.baseKey).getD t.text := by
  have hfind : s.parsed.find? t.key = some t := Parsed.find?_key ht
  rw [displayValue, hfind]
  cases s.resolve? t.key t.baseKey <;> rfl

/-- A segment as it is shown on its own: a literal run as it is, and for a token what its key
addresses. -/
def display (s : Session) : Segment → String
  | .literal run _ => String.ofList run
  | .token t => s.displayValue t.key t.baseKey

/-- A segment of the content is shown as it is filled in. -/
theorem toList_display {template : Template} (htemplate : s.activeTemplate? = some template)
    {segment : Segment} (hsegment : segment ∈ s.parsed.segments) :
    (s.display segment).toList =
      renderSegment template.selections s.library.defaults s.language segment := by
  cases segment with
  | literal run start => exact String.toList_ofList
  | token t =>
    rw [display, displayValue_key (Parsed.mem_tokens_of_segment hsegment), resolve?_eq htemplate,
      renderSegment]
    cases resolveOccurrence? template.selections s.library.defaults t.key t.baseKey s.language with
    | none => exact String.toList_ofList
    | some value => rfl

/-- **Both ways to show the content agree.** The content filled in is what its segments are, shown
each on its own, one after another. -/
theorem render_eq_join_display (s : Session) :
    s.render = String.join (s.parsed.segments.map s.display) := by
  apply String.toList_inj.1
  rw [String.toList_join, List.flatMap_map]
  cases h : s.activeTemplate? with
  | none =>
    have hsegments : s.parsed.segments = [] := by
      rw [parsed, contentText, h]
      show Segment.locate 0 [] (scan []) = []
      rw [scan, scanFrom_nil]
      rfl
    rw [render, h, hsegments]
    rfl
  | some template =>
    have hparsed : s.parsed = .ofText (template.text s.language) := by
      rw [parsed, contentText_eq h]
    rw [render, h]
    simp only [Stencil.render, String.toList_ofList, ← hparsed]
    exact List.flatMap_congr fun segment hsegment => (toList_display h hsegment).symm

end Stencil.Session
