import Stencil.Placeholder.Name
import Stencil.Placeholder.OccurrenceKey
import Stencil.Placeholder.Piece
import Stencil.Text.Utf8

/-!
# Parsed texts

A parsed text knows its placeholders as *tokens*: each with its name, its place in the text and the
number of its occurrence among those with its base key.

* `Parsed.ofText` — the segments and tokens of a text;
* `Parsed.tokenAt?` — the token a cursor sits in, by binary search;
* `Parsed.find?` — the token an occurrence key addresses;
* `Parsed.members` and `Parsed.linked` — the tokens of a group, and those linked with a token.
-/

namespace Stencil.Placeholder

open Text

/-- The places from `start` up to, not including, `stop`, counted in bytes. -/
structure Span where
  /-- The first place. -/
  start : Nat
  /-- The place after the last. -/
  stop : Nat
deriving DecidableEq, Repr

namespace Span

/-- A cursor touches a span from its first place to right behind its last. -/
def touches (s : Span) (cursor : Nat) : Bool := s.start ≤ cursor && cursor ≤ s.stop

/-- The number of bytes in a span. -/
def size (s : Span) : Nat := s.stop - s.start

end Span

/-- A placeholder in a text. -/
structure Token where
  /-- The placeholder as written. -/
  slot : Slot
  /-- The name in the slot. -/
  name : Name
  /-- The number of earlier tokens with the same base key. -/
  occurrence : Nat
  /-- The place of the first brace. -/
  start : Nat
  name_eq : name = Name.ofChars slot.name := by rfl

namespace Token

/-- The name as written. -/
def fullKey (t : Token) : String := String.ofList t.slot.name

/-- What is to be filled in. -/
def baseKey (t : Token) : String := t.name.base

/-- The group, if the name has one. -/
def group? (t : Token) : Option String := t.name.group

/-- The key that addresses this occurrence. -/
def key (t : Token) : String := occurrenceKey t.baseKey t.occurrence

/-- The token as written. -/
def text (t : Token) : String := String.ofList t.slot.text

/-- The places of the token, braces included. -/
def span (t : Token) : Span := ⟨t.start, t.start + byteLength t.slot.text⟩

/-- The places of the name. -/
def nameSpan (t : Token) : Span :=
  let start := t.start + 2 + byteLength t.slot.lead
  ⟨start, start + byteLength t.slot.name⟩

/-- The places of a cursor inside the token: those between its double braces. -/
def cursorSpan (t : Token) : Span := ⟨t.span.start + 2, t.span.stop - 2⟩

/-- Both tokens are in the same group of the same base key. -/
def isLinkedWith (t u : Token) : Bool :=
  t.group?.isSome && t.baseKey == u.baseKey && t.group? == u.group?

end Token

/-- A literal run or a token, at its place. -/
inductive Segment where
  /-- Characters that stand for themselves, from the given place on. -/
  | literal (run : List Char) (start : Nat)
  /-- A placeholder. -/
  | token (t : Token)

namespace Segment

/-- The token in a segment. -/
def token? : Segment → Option Token
  | literal _ _ => none
  | token t => some t

/-- A segment as written. -/
def text : Segment → List Char
  | literal run _ => run
  | token t => t.slot.text

/-- The places of a segment. -/
def span : Segment → Span
  | literal run start => ⟨start, start + byteLength run⟩
  | token t => t.span

/-- The segments of a row of pieces that begins at `start`, where `seen` are the base keys of the
tokens before. -/
def locate (start : Nat) (seen : List String) : List Piece → List Segment
  | [] => []
  | .literal run :: rest => literal run start :: locate (start + byteLength run) seen rest
  | .slot s :: rest =>
    let name := Name.ofChars s.name
    token { slot := s, name, occurrence := seen.count name.base, start } ::
      locate (start + byteLength s.text) (name.base :: seen) rest

end Segment

/-- A text taken apart into segments. -/
structure Parsed where
  /-- Literal runs and tokens, in the order of the text. -/
  segments : List Segment
  /-- The tokens among the segments, in the order of the text. -/
  tokens : Array Token
  tokens_toList : tokens.toList = segments.filterMap Segment.token?

namespace Parsed

/-- The segments and tokens of a row of characters. -/
def ofChars (cs : List Char) : Parsed :=
  let segments := Segment.locate 0 [] (scan cs)
  ⟨segments, (segments.filterMap Segment.token?).toArray, rfl⟩

/-- The segments and tokens of a text. -/
def ofText (text : String) : Parsed := ofChars text.toList

/-- The least index from `low` on, at most `high`, at which `p` fails, when all indices at which it
holds come first. -/
def partitionPoint (xs : Array α) (p : α → Bool) (low high : Nat) : Nat :=
  if low < high then
    let mid := (low + high) / 2
    match xs[mid]? with
    | some x => if p x then partitionPoint xs p (mid + 1) high else partitionPoint xs p low mid
    | none => low
  else low
termination_by high - low
decreasing_by all_goals omega

/-- The token whose inside the cursor touches. -/
def tokenAt? (p : Parsed) (cursor : Nat) : Option Token :=
  let index := partitionPoint p.tokens (·.cursorSpan.stop < cursor) 0 p.tokens.size
  p.tokens[index]?.filter (·.cursorSpan.touches cursor)

/-- The token that an occurrence key addresses. -/
def find? (p : Parsed) (key : String) : Option Token := do
  let (base, index) ← splitOccurrence? key
  p.tokens.find? fun t => t.baseKey == base && t.occurrence == index

/-- The tokens of a group, in the order of the text. -/
def members (p : Parsed) (base group : String) : List Token :=
  p.tokens.toList.filter fun t => t.baseKey == base && t.group? == some group

/-- The tokens that share a value with `t`: its group, or itself alone without one. -/
def linked (p : Parsed) (t : Token) : List Token :=
  match t.group? with
  | some group => p.members t.baseKey group
  | none => [t]

end Parsed

end Stencil.Placeholder
