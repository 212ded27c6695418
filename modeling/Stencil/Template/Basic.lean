import Stencil.Localized
import Stencil.Template.ExtraFields

/-!
# Templates

A template is a text with placeholders and the values picked for them, under an id and a name. A
stored copy of a template may lack some of its fields; it knows which.

* `Template.sameStructure`, `Template.sameBody` — comparisons that leave out the id and the tags;
* `Template.agreesWith` — the comparison in which what a copy lacks counts as equal; `sameBody_iff`
  and `agreesWith_iff` say of each field when two copies compare equal;
* `Template.fillAbsent` — a copy that takes what it lacks from another template;
* `≈` — equal in everything, up to the order of languages and selections.
-/

namespace Stencil

/-- Picked values by occurrence key. A key that belongs to no placeholder is kept and not read. -/
abbrev Selections := OrderedMap Localized

/-- What a template is written for. -/
inductive TemplateKind where
  /-- Pictures, and whatever is not known here. -/
  | image
  /-- Films. -/
  | video
deriving DecidableEq

/-- What a stored template lacks. -/
structure Template.Absent where
  /-- The name. -/
  name : Bool := false
  /-- The content. -/
  content : Bool := false
  /-- The selections. -/
  selections : Bool := false
  /-- The kind. -/
  kind : Bool := false
deriving DecidableEq

/-- A text with placeholders and the values picked for them. -/
structure Template where
  /-- What the template is known by in its library. -/
  id : String
  /-- The name shown to the user. -/
  name : Localized := .empty
  /-- The text with placeholders. -/
  content : Localized := .empty
  /-- The values picked for the placeholders. -/
  selections : Selections := .empty
  /-- Words to find the template by. -/
  tags : List String := []
  /-- What the template is written for. -/
  kind : TemplateKind := .image
  /-- Fields without a meaning here. -/
  extra : ExtraFields := .empty
  /-- What a stored copy lacked, whose place a default has taken. -/
  absent : Template.Absent := {}

namespace Template

/-- The content shown in a language. -/
def text (t : Template) (language : String) : String := t.content.resolve language

/-- There is no content. -/
def isBlank (t : Template) : Bool := t.content.isBlank

/-- Content, selections, kind and extra fields are those of `other`. -/
def sameBody (t other : Template) : Bool :=
  decide (t.content ≈ other.content) && decide (t.selections ≈ other.selections) &&
    t.kind == other.kind && decide (t.extra ≈ other.extra)

theorem sameBody_iff {t other : Template} :
    t.sameBody other ↔ t.content ≈ other.content ∧ t.selections ≈ other.selections ∧
      t.kind = other.kind ∧ t.extra ≈ other.extra := by
  simp [sameBody, and_assoc]

/-- The name and the body are those of `other`. -/
def sameStructure (t other : Template) : Bool :=
  decide (t.name ≈ other.name) && t.sameBody other

/-- The name and the body are those of `other`, as far as the template has them. -/
def agreesWith (t other : Template) : Bool :=
  (t.absent.name || decide (t.name ≈ other.name)) &&
    (t.absent.content || decide (t.content ≈ other.content)) &&
    (t.absent.selections || decide (t.selections ≈ other.selections)) &&
    (t.absent.kind || t.kind == other.kind) && decide (t.extra ≈ other.extra)

theorem agreesWith_iff {t other : Template} :
    t.agreesWith other ↔ (t.absent.name ∨ t.name ≈ other.name) ∧
      (t.absent.content ∨ t.content ≈ other.content) ∧
      (t.absent.selections ∨ t.selections ≈ other.selections) ∧
      (t.absent.kind ∨ t.kind = other.kind) ∧ t.extra ≈ other.extra := by
  simp [agreesWith, and_assoc]

/-- The template with everything it lacks taken from `other`. -/
def fillAbsent (t other : Template) : Template :=
  { t with
    name := if t.absent.name then other.name else t.name
    content := if t.absent.content then other.content else t.content
    selections := if t.absent.selections then other.selections else t.selections
    kind := if t.absent.kind then other.kind else t.kind
    absent := {} }

/-- Equal in everything, up to the order of languages and selections. -/
def Same (t u : Template) : Prop :=
  t.id = u.id ∧ t.name ≈ u.name ∧ t.content ≈ u.content ∧ t.selections ≈ u.selections ∧
    t.tags = u.tags ∧ t.kind = u.kind ∧ t.extra ≈ u.extra ∧ t.absent = u.absent

instance : Setoid Template where
  r := Same
  iseqv :=
    ⟨fun _ => ⟨rfl, Setoid.refl _, Setoid.refl _, Setoid.refl _, rfl, rfl, Setoid.refl _, rfl⟩,
      fun ⟨h₁, h₂, h₃, h₄, h₅, h₆, h₇, h₈⟩ =>
        ⟨h₁.symm, Setoid.symm h₂, Setoid.symm h₃, Setoid.symm h₄, h₅.symm, h₆.symm,
          Setoid.symm h₇, h₈.symm⟩,
      fun ⟨h₁, h₂, h₃, h₄, h₅, h₆, h₇, h₈⟩ ⟨k₁, k₂, k₃, k₄, k₅, k₆, k₇, k₈⟩ =>
        ⟨h₁.trans k₁, Setoid.trans h₂ k₂, Setoid.trans h₃ k₃, Setoid.trans h₄ k₄, h₅.trans k₅,
          h₆.trans k₆, Setoid.trans h₇ k₇, h₈.trans k₈⟩⟩

instance (t u : Template) : Decidable (t ≈ u) :=
  decidable_of_iff (t.id = u.id ∧ t.name ≈ u.name ∧ t.content ≈ u.content ∧
    t.selections ≈ u.selections ∧ t.tags = u.tags ∧ t.kind = u.kind ∧ t.extra ≈ u.extra ∧
    t.absent = u.absent) Iff.rfl

end Template

end Stencil
