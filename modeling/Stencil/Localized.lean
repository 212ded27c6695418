import Stencil.OrderedMap
import Stencil.Text.Blank

/-!
# Localized texts

A text for the reader is one string, or one string per language. Shown in a language, it falls back
on other languages where its own entry is missing or empty.

* `Localized.resolve` — the string shown in a language;
* `Localized.withLanguage`, `Localized.withSuffix` — changed copies;
* `≈` — the same strings, in whatever order the languages are listed. One string is never alike to
  one string per language.
-/

namespace Stencil

/-- One string, or one string per language. -/
inductive Localized where
  /-- The same string in every language. -/
  | plain (text : String)
  /-- A string per language code. -/
  | localized (byLanguage : OrderedMap String)

namespace Localized

/-- The empty text. -/
def empty : Localized := plain ""

instance : Inhabited Localized := ⟨empty⟩

/-- The languages tried first where the one asked for has no string. -/
def fallbacks : List String := ["cn", "en"]

/-- The string shown in a language: the first nonempty one among that of the language, those of the
fallback languages and those of all languages. -/
def resolve (t : Localized) (language : String) : String :=
  match t with
  | plain text => text
  | localized m =>
    (((language :: fallbacks).filterMap m.get? ++ m.values).find? (· ≠ "")).getD ""

/-- The strings of all languages. -/
def texts : Localized → List String
  | plain text => [text]
  | localized m => m.values

/-- No language has anything but white space. -/
def isBlank (t : Localized) : Bool := t.texts.all Text.isBlank

/-- Some language has exactly this string. -/
def mentions (t : Localized) (s : String) : Bool := t.texts.contains s

/-- Change the string of every language. -/
def map (f : String → String) : Localized → Localized
  | plain text => plain (f text)
  | localized m => localized (m.map fun _ => f)

/-- Another string for one language; a text without languages is replaced as a whole. -/
def withLanguage (t : Localized) (language text : String) : Localized :=
  match t with
  | plain _ => plain text
  | localized m => localized (m.insert language text)

/-- The text with a suffix after a space in every language; an empty suffix changes nothing. -/
def withSuffix (t : Localized) (suffix : String) : Localized :=
  if suffix = "" then t else t.map fun text => text ++ " " ++ suffix

/-- Both are the same string, or have the same strings in the same languages. -/
def Same : Localized → Localized → Prop
  | plain s, plain t => s = t
  | localized m, localized n => m.Agree (· = ·) n
  | _, _ => False

theorem Same.refl : (t : Localized) → Same t t
  | plain _ => rfl
  | localized m => OrderedMap.Agree.refl (fun _ => rfl) m

theorem Same.symm : {t u : Localized} → Same t u → Same u t
  | plain _, plain _, h => Eq.symm h
  | localized _, localized _, h => OrderedMap.Agree.symm h Eq.symm

theorem Same.trans : {t u v : Localized} → Same t u → Same u v → Same t v
  | plain _, plain _, plain _, h, h' => Eq.trans h h'
  | localized _, localized _, localized _, h, h' => OrderedMap.Agree.trans h h' Eq.trans

instance : Setoid Localized := ⟨Same, Same.refl, Same.symm, Same.trans⟩

instance : (t u : Localized) → Decidable (t ≈ u)
  | plain s, plain t => decidable_of_iff (s = t) Iff.rfl
  | localized m, localized n => decidable_of_iff (m.Agree (· = ·) n) Iff.rfl
  | plain _, localized _ => .isFalse id
  | localized _, plain _ => .isFalse id

end Localized

end Stencil
