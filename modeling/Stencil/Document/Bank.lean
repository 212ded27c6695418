import Stencil.Bank.Basic
import Stencil.Document.Record

/-!
# Banks and categories in documents

A bank has the fields `label`, `category` and `options`, of which each may be missing or `null`; as
an array it has all three. A category has the fields `label` and `color`, of which each may be
missing.
-/

namespace Stencil

namespace Bank

/-- The bank of a record; it knows which fields the record lacks. -/
def ofJson? (v : Json) : Option Bank := do
  let fields ← v.fields? ["label", "category", "options"] 3 .refused
  let label ← Json.optionalField? fields "label" Localized.ofJson?
  let category ← Json.optionalField? fields "category" Json.string?
  let options ← Json.optionalField? fields "options" (Json.listOf? Localized.ofJson?)
  let bank : Bank := {}
  some
    { label := label.getD bank.label
      category := category.getD bank.category
      options := options.getD bank.options
      absent :=
        { label := label.isNone, category := category.isNone, options := options.isNone } }

/-- The bank as a value of a document. -/
def toJson (b : Bank) : Json :=
  .obj [("label", b.label.toJson), ("category", .str b.category),
    ("options", .arr (b.options.map Localized.toJson))]

end Bank

namespace Category

/-- The category of a record. -/
def ofJson? (v : Json) : Option Category := do
  let fields ← v.fields? ["label", "color"] 0 .refused
  let category : Category := {}
  some
    { label := ← Json.fieldOr? fields "label" category.label Localized.ofJson?
      color := ← Json.fieldOr? fields "color" category.color Json.string? }

/-- The category as a value of a document. -/
def toJson (c : Category) : Json := .obj [("label", c.label.toJson), ("color", .str c.color)]

end Category

end Stencil
