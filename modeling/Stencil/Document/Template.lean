import Stencil.Document.Record
import Stencil.Template.Basic

/-!
# Templates in documents

A template is an object with an `id`. The fields `name`, `content`, `selections` and `type` may be
missing or `null`, and `tags` may be missing. All other fields are kept as extra fields.
-/

namespace Stencil

namespace TemplateKind

/-- The kind with the given name; every name but one is that of pictures. -/
def ofName (name : String) : TemplateKind := if name = "video" then .video else .image

/-- The name of a kind, or an object with the name alone and no value. -/
def ofJson? : Json → Option TemplateKind
  | .str name => some (ofName name)
  | .obj [(name, .null)] => some (ofName name)
  | _ => none

/-- The name of a kind. -/
def toJson : TemplateKind → Json
  | image => .str "image"
  | video => .str "video"

end TemplateKind

namespace Template

/-- The names of the fields with a meaning. -/
def fieldNames : List String := ["id", "name", "content", "selections", "tags", "type"]

/-- The extra fields of an object, if all of them are readable. -/
def extraFields? (members : List (String × Json)) : Option ExtraFields :=
  ExtraFields.ofMembers? (members.filter fun m => !fieldNames.contains m.1)

/-- The template of an object; it knows which fields the object lacks. -/
def ofJson? : Json → Option Template
  | .obj fields => do
    let id ← (← Json.field? fields "id").bind Json.string?
    let name ← Json.optionalField? fields "name" Localized.ofJson?
    let content ← Json.optionalField? fields "content" Localized.ofJson?
    let selections ← Json.optionalField? fields "selections" (Json.mapOf? Localized.ofJson?)
    let tags ← Json.fieldOr? fields "tags" [] (Json.listOf? Json.string?)
    let kind ← Json.optionalField? fields "type" TemplateKind.ofJson?
    let extra ← extraFields? fields
    let template : Template := { id }
    some
      { id
        name := name.getD template.name
        content := content.getD template.content
        selections := selections.getD template.selections
        tags
        kind := kind.getD template.kind
        extra
        absent :=
          { name := name.isNone, content := content.isNone, selections := selections.isNone
            kind := kind.isNone } }
  | _ => none

/-- The template as a value of a document, its extra fields last. -/
def toJson (t : Template) : Json :=
  .obj ([("id", .str t.id), ("name", t.name.toJson), ("content", t.content.toJson),
    ("selections", Json.ofMap Localized.toJson t.selections), ("tags", .arr (t.tags.map .str)),
    ("type", t.kind.toJson)] ++ t.extra.members)

end Template

end Stencil
