import Stencil.Json.Lexeme

/-!
# Reading documents

The lexemes of a document are put together one by one, with a stack of the arrays and objects that
are still open, so a document may be nested to any depth; values nested too deeply are unreadable.

* `Json.ofText?` — the value of a text, as it stands there;
* `Json.document?` — the value of a text in which everything is readable, with every member once.
-/

namespace Stencil

namespace Json

/-- An array or object that is still open, with what it holds so far, last things first. -/
inductive Frame where
  /-- An array. -/
  | array (items : List Json)
  /-- An object. -/
  | object (members : List (Option String × Json))
  /-- An object with a name for which a value is to come. -/
  | member (members : List (Option String × Json)) (key : Option String)

/-- What may come next. -/
inductive Focus where
  /-- A value. -/
  | value
  /-- The first item of an array, or its end. -/
  | firstItem
  /-- A name. -/
  | key
  /-- The first name in an object, or its end. -/
  | firstKey
  /-- The colon after a name. -/
  | colon (key : Option String)
  /-- A comma or the end of what is open, after a value. -/
  | after (v : Json)

/-- A document read in part. -/
structure Partial where
  /-- The open arrays and objects, the innermost first. -/
  frames : List Frame
  /-- What may come next. -/
  focus : Focus

/-- Values nested more deeply than this are unreadable. -/
def maxDepth : Nat := 127

/-- There is room for one more array or object within `frames`. -/
def hasRoom (frames : List Frame) : Bool := (frames.drop (maxDepth - 1)).isEmpty

/-- The members of an object, if all their names are readable. -/
def namedMembers? (members : List (Option String × Json)) : Option (List (String × Json)) :=
  members.foldl (fun done m => do some ((← m.1, m.2) :: (← done))) (some [])

namespace Partial

/-- Nothing read. -/
def start : Partial := ⟨[], .value⟩

/-- The innermost array or object is complete; `frames` are those around it. -/
def close (frames : List Frame) (v : Json) : Partial :=
  ⟨frames, .after (if hasRoom frames then v else unreadable)⟩

/-- The innermost array is complete. -/
def closeArray (frames : List Frame) (items : List Json) : Partial :=
  close frames (arr items.reverse)

/-- The innermost object is complete. -/
def closeObject (frames : List Frame) (members : List (Option String × Json)) : Partial :=
  close frames (((namedMembers? members).map obj).getD unreadable)

/-- One more lexeme, where it may stand. -/
def step? (p : Partial) (lexeme : Lexeme) : Option Partial :=
  match p.focus, lexeme, p.frames with
  | .value, .scalar v, frames => some ⟨frames, .after v⟩
  | .value, .text s, frames => some ⟨frames, .after ((s.map str).getD unreadable)⟩
  | .value, .openArray, frames => some ⟨.array [] :: frames, .firstItem⟩
  | .value, .openObject, frames => some ⟨.object [] :: frames, .firstKey⟩
  | .firstItem, .scalar v, frames => some ⟨frames, .after v⟩
  | .firstItem, .text s, frames => some ⟨frames, .after ((s.map str).getD unreadable)⟩
  | .firstItem, .openArray, frames => some ⟨.array [] :: frames, .firstItem⟩
  | .firstItem, .openObject, frames => some ⟨.object [] :: frames, .firstKey⟩
  | .firstItem, .closeArray, .array items :: frames => some (closeArray frames items)
  | .key, .text s, frames => some ⟨frames, .colon s⟩
  | .firstKey, .text s, frames => some ⟨frames, .colon s⟩
  | .firstKey, .closeObject, .object members :: frames => some (closeObject frames members)
  | .colon key, .colon, .object members :: frames => some ⟨.member members key :: frames, .value⟩
  | .after v, .comma, .array items :: frames => some ⟨.array (v :: items) :: frames, .value⟩
  | .after v, .comma, .member members key :: frames =>
    some ⟨.object ((key, v) :: members) :: frames, .key⟩
  | .after v, .closeArray, .array items :: frames => some (closeArray frames (v :: items))
  | .after v, .closeObject, .member members key :: frames =>
    some (closeObject frames ((key, v) :: members))
  | _, _, _ => none

/-- The value of a document, if it is complete. -/
def value? : Partial → Option Json
  | ⟨[], .after v⟩ => some v
  | _ => none

end Partial

/-- The value of a text as it stands there. -/
def ofText? (text : String) : Option Json := do
  let p ← (← lexemes? text.toList).foldlM Partial.step? Partial.start
  p.value?

/-- The value of a text in which everything is readable; a member named more than once keeps its
first place and its last value. -/
def document? (text : String) : Option Json :=
  ((ofText? text).filter readable).map normalize

end Json

end Stencil
