import Stencil.Bank.Basic
import Stencil.Template.Basic

/-!
# Libraries

A library holds templates in order, banks by base key, a default value for some base keys, and the
categories in which banks are shown.

* `Library.template?` — the first template with an id;
* `Library.modifyTemplate` — the library with that template changed;
* `≈` — equal in everything, where only templates, tags and options have an order.
-/

namespace Stencil

/-- Default values by base key. -/
abbrev Defaults := OrderedMap Localized

/-- Templates, banks, defaults and categories. -/
structure Library where
  /-- The templates, in order. -/
  templates : List Template := []
  /-- The banks by base key. -/
  banks : OrderedMap Bank := .empty
  /-- The values shown for base keys without a selection. -/
  defaults : Defaults := .empty
  /-- The categories by their keys. -/
  categories : OrderedMap Category := .empty

namespace Library

instance : Inhabited Library := ⟨{}⟩

/-- The first template with an id. -/
def template? (l : Library) (id : String) : Option Template := l.templates.find? (·.id == id)

/-- Some template has the id. -/
def hasTemplate (l : Library) (id : String) : Bool := l.templates.any (·.id == id)

/-- Change the first template with an id. -/
def modifyFirst (id : String) (f : Template → Template) : List Template → List Template
  | [] => []
  | t :: ts => if t.id = id then f t :: ts else t :: modifyFirst id f ts

/-- The library with its first template of an id changed. -/
def modifyTemplate (l : Library) (id : String) (f : Template → Template) : Library :=
  { l with templates := modifyFirst id f l.templates }

/-- Equal in everything, where only templates, tags and options have an order. -/
def Same (l m : Library) : Prop :=
  AllAlike l.templates m.templates ∧ l.banks ≈ m.banks ∧ l.defaults ≈ m.defaults ∧
    l.categories ≈ m.categories

instance : Setoid Library where
  r := Same
  iseqv :=
    ⟨fun _ => ⟨AllAlike.refl _, Setoid.refl _, Setoid.refl _, Setoid.refl _⟩,
      fun ⟨h₁, h₂, h₃, h₄⟩ =>
        ⟨AllAlike.symm h₁, Setoid.symm h₂, Setoid.symm h₃,
          Setoid.symm h₄⟩,
      fun ⟨h₁, h₂, h₃, h₄⟩ ⟨k₁, k₂, k₃, k₄⟩ =>
        ⟨AllAlike.trans h₁ k₁, Setoid.trans h₂ k₂,
          Setoid.trans h₃ k₃, Setoid.trans h₄ k₄⟩⟩

instance (l m : Library) : Decidable (l ≈ m) :=
  decidable_of_iff (AllAlike l.templates m.templates ∧ l.banks ≈ m.banks ∧
    l.defaults ≈ m.defaults ∧ l.categories ≈ m.categories) Iff.rfl

end Library

end Stencil
