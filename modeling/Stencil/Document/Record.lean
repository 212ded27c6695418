import Stencil.Json.Basic
import Stencil.Localized

/-!
# Records and localized texts in documents

A record is written as an object with named fields, or as an array of its fields in order. Fields
that are not known are left out; a known field must not be named twice. A localized text is written
as a string, or as an object with a string for each language.

* `Json.fields?` — the fields of a record;
* `Json.field?` — one of them, if it is there;
* `Json.mapOf?`, `Json.listOf?` — objects and arrays whose values are all of one type;
* `Localized.ofJson?`, `Localized.toJson` — localized texts.
-/

namespace Stencil

namespace Json

/-- What becomes of the items of an array behind the fields of a record. -/
inductive Surplus where
  /-- There may be none. -/
  | refused
  /-- They do not matter. -/
  | ignored
deriving DecidableEq

/-- The fields of a record as named values: those of an object, or the items of an array under the
names of the fields at their places. At least `required` items have to be there. -/
def fields? (names : List String) (required : Nat) (surplus : Surplus) :
    Json → Option (List (String × Json))
  | obj members => some members
  | arr items =>
    if items.length < required then none
    else if names.length < items.length && surplus == .refused then none
    else some (names.zip items)
  | _ => none

/-- A field of a record, if it is there; nothing is read from a record that names it twice. -/
def field? (fields : List (String × Json)) (name : String) : Option (Option Json) :=
  match fields.filter (·.1 == name) with
  | [] => some none
  | [m] => some (some m.2)
  | _ => none

/-- A field that may be missing or `null`. -/
def optionalField? {α : Type} (fields : List (String × Json)) (name : String)
    (read : Json → Option α) : Option (Option α) := do
  match ← field? fields name with
  | none => some none
  | some v => if v.isNull then some none else (read v).map some

/-- A field with a default for when it is missing. -/
def fieldOr? {α : Type} (fields : List (String × Json)) (name : String) (default : α)
    (read : Json → Option α) : Option α := do
  match ← field? fields name with
  | none => some default
  | some v => read v

/-- A string. -/
def string? : Json → Option String
  | str s => some s
  | _ => none

/-- An array with items of one type. -/
def listOf? {α : Type} (read : Json → Option α) : Json → Option (List α)
  | arr items => items.mapM read
  | _ => none

/-- An object with values of one type; a name that comes twice keeps its first place and its last
value. -/
def mapOf? {α : Type} (read : Json → Option α) : Json → Option (OrderedMap α)
  | obj members => (members.mapM fun m => (read m.2).map (m.1, ·)).map OrderedMap.ofList
  | _ => none

/-- The object of a map. -/
def ofMap {α : Type} (write : α → Json) (m : OrderedMap α) : Json :=
  obj (m.entries.map fun e => (e.1, write e.2))

end Json

namespace Localized

/-- A string, or an object of strings. -/
def ofJson? : Json → Option Localized
  | .str s => some (plain s)
  | v => (Json.mapOf? Json.string? v).map localized

/-- The text as a value of a document. -/
def toJson : Localized → Json
  | plain s => .str s
  | localized m => Json.ofMap .str m

end Localized

end Stencil
