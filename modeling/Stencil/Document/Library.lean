import Stencil.Document.Bank
import Stencil.Document.Template
import Stencil.Json.Reading
import Stencil.Library.Basic

/-!
# Libraries in documents

A library has the sections `templates`, `banks`, `defaults` and `categories`. It is read in one of
two ways: strictly, where every entry has to be right, and leniently, where what is wrong is left
out.

* `Library.ofJson?` — the strict way;
* `Library.ofJsonLenient` — the lenient way;
* `Library.ofText?` — a document read leniently.
-/

namespace Stencil.Library

/-- The library of a record in which every entry is right; missing sections are empty. -/
def ofJson? (v : Json) : Option Library := do
  let fields ← v.fields? ["templates", "banks", "defaults", "categories"] 0 .refused
  some
    { templates := ← Json.fieldOr? fields "templates" [] (Json.listOf? Template.ofJson?)
      banks := ← Json.fieldOr? fields "banks" .empty (Json.mapOf? Bank.ofJson?)
      defaults := ← Json.fieldOr? fields "defaults" .empty (Json.mapOf? Localized.ofJson?)
      categories := ← Json.fieldOr? fields "categories" .empty (Json.mapOf? Category.ofJson?) }

/-- The items of a section that are right; a section that is no array has none. -/
def lenientList {α : Type} (v : Json) (name : String) (read : Json → Option α) : List α :=
  match v.member? name with
  | some (.arr items) => items.filterMap read
  | _ => []

/-- The entries of a section that are right; a section that is no object has none. -/
def lenientMap {α : Type} (v : Json) (name : String) (read : Json → Option α) : OrderedMap α :=
  match v.member? name with
  | some (.obj members) =>
    OrderedMap.ofList (members.filterMap fun m => (read m.2).map (m.1, ·))
  | _ => .empty

/-- The library of whatever is right in a value. -/
def ofJsonLenient (v : Json) : Library where
  templates := lenientList v "templates" Template.ofJson?
  banks := lenientMap v "banks" Bank.ofJson?
  defaults := lenientMap v "defaults" Localized.ofJson?
  categories := lenientMap v "categories" Category.ofJson?

/-- The library of whatever is right in a document. -/
def ofText? (text : String) : Option Library := (Json.document? text).map ofJsonLenient

/-- The library as a value of a document. -/
def toJson (l : Library) : Json :=
  .obj [("templates", .arr (l.templates.map Template.toJson)),
    ("banks", Json.ofMap Bank.toJson l.banks), ("defaults", Json.ofMap Localized.toJson l.defaults),
    ("categories", Json.ofMap Category.toJson l.categories)]

end Stencil.Library
