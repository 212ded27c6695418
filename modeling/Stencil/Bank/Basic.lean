import Stencil.Listwise
import Stencil.Localized
import Stencil.Placeholder.Name
import Stencil.Text.Blank

/-!
# Banks

A bank is the list of values to choose from for one base key, with a label and the category it is
shown in. A stored copy of a bank may lack some of these; it knows which. A bank is stored under a
base key, so its key has to be one that a placeholder can name.

* `Bank.sanitizeKey` — the key for what a user typed: small letters, digits and underscores;
* `Bank.usableKey?` — the same, unless no placeholder could name it;
* `Bank.hasOption`, `Bank.pushOption` — options up to the order of their languages;
* `Bank.headerDiffers`, `Bank.sameContents` — comparisons in which what a copy lacks counts as
  equal;
* `Bank.fillAbsent` — a copy that takes what it lacks from another bank;
* `≈` — equal in everything, up to the order of languages.
-/

namespace Stencil

/-- What a stored bank lacks. -/
structure Bank.Absent where
  /-- The label. -/
  label : Bool := false
  /-- The category. -/
  category : Bool := false
  /-- The options. -/
  options : Bool := false
deriving DecidableEq

/-- The values to choose from for a base key. -/
structure Bank where
  /-- The name shown to the user. -/
  label : Localized := .empty
  /-- The key of the category it is shown in. -/
  category : String := "other"
  /-- The values, in order. -/
  options : List Localized := []
  /-- What a stored copy lacked, whose place a default has taken. -/
  absent : Bank.Absent := {}

namespace Bank

/-- An option like `value` is in the bank. -/
def hasOption (b : Bank) (value : Localized) : Bool := b.options.any fun o => decide (o ≈ value)

/-- Add an option at the end, unless one like it is in the bank. -/
def pushOption (b : Bank) (value : Localized) : Bank :=
  if b.hasOption value then b else { b with options := b.options ++ [value] }

/-- There is neither a label nor an option. -/
def isBlank (b : Bank) : Bool := b.label.isBlank && b.options.isEmpty

/-- The label or the category differs from that of `other`, as far as the bank has them. -/
def headerDiffers (b other : Bank) : Bool :=
  (!b.absent.label && !decide (b.label ≈ other.label)) ||
    (!b.absent.category && b.category != other.category)

/-- The label is that of `other`, and so are the options in any order, as far as the bank has
them. -/
def sameContents (b other : Bank) : Bool :=
  (b.absent.label || decide (b.label ≈ other.label)) &&
    (b.absent.options ||
      (b.options.length == other.options.length && b.options.all other.hasOption))

/-- The options are those of `other`, in the same order. -/
def sameOptions (b other : Bank) : Bool := decide (AllAlike b.options other.options)

/-- The bank with everything it lacks taken from `other`. -/
def fillAbsent (b other : Bank) : Bank :=
  { label := if b.absent.label then other.label else b.label
    category := if b.absent.category then other.category else b.category
    options := if b.absent.options then other.options else b.options }

/-- Equal in everything, up to the order of languages. -/
def Same (b c : Bank) : Prop :=
  b.label ≈ c.label ∧ b.category = c.category ∧ AllAlike b.options c.options ∧
    b.absent = c.absent

instance : Setoid Bank where
  r := Same
  iseqv :=
    ⟨fun _ => ⟨Setoid.refl _, rfl, AllAlike.refl _, rfl⟩,
      fun ⟨h, h', h'', h'''⟩ =>
        ⟨Setoid.symm h, h'.symm, AllAlike.symm h'', h'''.symm⟩,
      fun ⟨h, h', h'', h'''⟩ ⟨k, k', k'', k'''⟩ =>
        ⟨Setoid.trans h k, h'.trans k', AllAlike.trans h'' k'',
          h'''.trans k'''⟩⟩

instance (b c : Bank) : Decidable (b ≈ c) :=
  decidable_of_iff (b.label ≈ c.label ∧ b.category = c.category ∧
    AllAlike b.options c.options ∧ b.absent = c.absent) Iff.rfl

/-! ## Keys -/

/-- A character that may stand in a key, in small or capital form. -/
def isKeyChar (c : Char) : Bool := c.isAlphanum || c == '_'

/-- What a user typed, without the white space at its ends, in small letters, and with an underscore
for each character that may not stand in a key. -/
def sanitizeKey (raw : String) : String :=
  String.ofList ((Text.trim raw).toList.map fun c => if isKeyChar c then c.toLower else '_')

/-- The sanitized key, unless it has nothing but underscores or would be read as a base key with a
group. -/
def usableKey? (raw : String) : Option String :=
  let key := sanitizeKey raw
  if key.toList.all (· == '_') || (Placeholder.Name.split key).group.isSome then none else some key

end Bank

/-- A group of banks. -/
structure Category where
  /-- The name shown to the user. -/
  label : Localized := .empty
  /-- The colour it is shown in. -/
  color : String := "slate"

namespace Category

instance : Setoid Category where
  r c d := c.label ≈ d.label ∧ c.color = d.color
  iseqv :=
    ⟨fun _ => ⟨Setoid.refl _, rfl⟩, fun h => ⟨Setoid.symm h.1, h.2.symm⟩,
      fun h k => ⟨Setoid.trans h.1 k.1, h.2.trans k.2⟩⟩

instance (c d : Category) : Decidable (c ≈ d) :=
  decidable_of_iff (c.label ≈ d.label ∧ c.color = d.color) Iff.rfl

end Category

end Stencil
