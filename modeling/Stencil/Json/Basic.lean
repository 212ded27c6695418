import Stencil.Number.Binary64
import Stencil.OrderedMap

/-!
# JSON values

Values as they stand in a document, where an object may name a member more than once, and what is
made of them.

* `Json.readable` — no part of the value is well-formed text that stands for nothing;
* `Json.normalize` — a member named more than once keeps its first place and its last value;
* `Json.Normal` — no object names a member twice, which `normal_normalize` says of `normalize`;
* `Json.canonical` — members sorted by name and zeros without a sign: what counts when two values
  are compared.
-/

namespace Stencil

open Number

/-- A value of a document. -/
inductive Json where
  /-- The value `null`. -/
  | null
  /-- A truth value. -/
  | bool (b : Bool)
  /-- A number written as an integer. -/
  | int (n : Int)
  /-- Any other number. -/
  | float (x : Binary64)
  /-- A string. -/
  | str (s : String)
  /-- An array. -/
  | arr (items : List Json)
  /-- An object: members in the order of the document. -/
  | obj (members : List (String × Json))
  /-- Well-formed text that stands for nothing: a number out of range, half of a surrogate pair, or
  a value nested too deeply. -/
  | unreadable

namespace Json

instance : Inhabited Json := ⟨null⟩

/-- The value is `null`. -/
def isNull : Json → Bool
  | null => true
  | _ => false

/-- The value of the first member with the given name, if the value is an object that has one. -/
def member? (v : Json) (name : String) : Option Json :=
  match v with
  | obj members => members.lookup name
  | _ => none

/-! ## Readable values -/

mutual

/-- No part of the value stands for nothing. -/
def readable : Json → Bool
  | arr items => readableItems items
  | obj members => readableMembers members
  | unreadable => false
  | _ => true

/-- All items are readable. -/
def readableItems : List Json → Bool
  | [] => true
  | v :: vs => v.readable && readableItems vs

/-- The values of all members are readable. -/
def readableMembers : List (String × Json) → Bool
  | [] => true
  | (_, v) :: ms => v.readable && readableMembers ms

end

/-! ## Members named more than once -/

mutual

/-- A member named more than once keeps its first place and its last value. -/
def normalize : Json → Json
  | arr items => arr (normalizeItems items)
  | obj members => obj (OrderedMap.ofList (normalizeMembers members)).entries
  | v => v

/-- Normalize every item. -/
def normalizeItems : List Json → List Json
  | [] => []
  | v :: vs => v.normalize :: normalizeItems vs

/-- Normalize the value of every member. -/
def normalizeMembers : List (String × Json) → List (String × Json)
  | [] => []
  | (k, v) :: ms => (k, v.normalize) :: normalizeMembers ms

end

mutual

/-- No object in the value names a member twice. -/
def Normal : Json → Prop
  | arr items => NormalItems items
  | obj members => (members.map Prod.fst).Nodup ∧ NormalMembers members
  | _ => True

/-- All items are normal. -/
def NormalItems : List Json → Prop
  | [] => True
  | v :: vs => v.Normal ∧ NormalItems vs

/-- The values of all members are normal. -/
def NormalMembers : List (String × Json) → Prop
  | [] => True
  | (_, v) :: ms => v.Normal ∧ NormalMembers ms

end

theorem normalMembers_iff {members : List (String × Json)} :
    NormalMembers members ↔ ∀ m ∈ members, m.2.Normal := by
  induction members with
  | nil => simp [NormalMembers]
  | cons m ms ih => simp [NormalMembers, ih]

mutual

/-- A normalized value names no member twice. -/
theorem normal_normalize : (v : Json) → v.normalize.Normal
  | arr items => by simpa [normalize, Normal] using normalItems_normalizeItems items
  | obj members => by
    rw [normalize, Normal, normalMembers_iff]
    exact ⟨OrderedMap.nodup_keys _, OrderedMap.forall_entries_ofList
      (normalMembers_iff.1 (normalMembers_normalizeMembers members))⟩
  | null | bool _ | int _ | float _ | str _ | unreadable => trivial

theorem normalItems_normalizeItems : (vs : List Json) → NormalItems (normalizeItems vs)
  | [] => trivial
  | v :: vs => ⟨normal_normalize v, normalItems_normalizeItems vs⟩

theorem normalMembers_normalizeMembers :
    (ms : List (String × Json)) → NormalMembers (normalizeMembers ms)
  | [] => trivial
  | (_, v) :: ms => ⟨normal_normalize v, normalMembers_normalizeMembers ms⟩

end

theorem readableMembers_iff {members : List (String × Json)} :
    readableMembers members ↔ ∀ m ∈ members, m.2.readable := by
  induction members with
  | nil => simp [readableMembers]
  | cons m ms ih => simp [readableMembers, ih]

mutual

/-- A normalized value is readable if the value is. -/
theorem readable_normalize : (v : Json) → v.readable → v.normalize.readable
  | arr items, h => by simpa [normalize, readable] using readableItems_normalizeItems items h
  | obj members, h => by
    rw [normalize, readable, readableMembers_iff]
    exact OrderedMap.forall_entries_ofList
      (readableMembers_iff.1 (readableMembers_normalizeMembers members h))
  | null, _ | bool _, _ | int _, _ | float _, _ | str _, _ => rfl

theorem readableItems_normalizeItems :
    (vs : List Json) → readableItems vs → readableItems (normalizeItems vs)
  | [], _ => rfl
  | v :: vs, h => by
    rw [readableItems, Bool.and_eq_true] at h
    rw [normalizeItems, readableItems, readable_normalize v h.1,
      readableItems_normalizeItems vs h.2]
    rfl

theorem readableMembers_normalizeMembers :
    (ms : List (String × Json)) → readableMembers ms → readableMembers (normalizeMembers ms)
  | [], _ => rfl
  | (_, v) :: ms, h => by
    rw [readableMembers, Bool.and_eq_true] at h
    rw [normalizeMembers, readableMembers, readable_normalize v h.1,
      readableMembers_normalizeMembers ms h.2]
    rfl

end

/-! ## Comparison -/

mutual

/-- Members sorted by name, and zeros without a sign. -/
def canonical : Json → Json
  | float x => float (if x.isZero then Binary64.zero false else x)
  | arr items => arr (canonicalItems items)
  | obj members => obj ((canonicalMembers members).mergeSort fun m n => m.1 ≤ n.1)
  | v => v

/-- The canonical forms of all items. -/
def canonicalItems : List Json → List Json
  | [] => []
  | v :: vs => v.canonical :: canonicalItems vs

/-- The canonical forms of the values of all members. -/
def canonicalMembers : List (String × Json) → List (String × Json)
  | [] => []
  | (k, v) :: ms => (k, v.canonical) :: canonicalMembers ms

end

end Json

end Stencil
