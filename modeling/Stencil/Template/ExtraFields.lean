import Stencil.Json.Writing

/-!
# Extra fields of a template

A stored template may have fields that mean nothing here. They are kept as they are, in order, each
with one value.
-/

namespace Stencil

/-- Fields without a meaning here, all of them readable and none of them named twice at any
depth. -/
structure ExtraFields where
  /-- The fields in order. -/
  members : List (String × Json)
  normal : Json.Normal (.obj members)
  readable : Json.readable (.obj members)

namespace ExtraFields

/-- No fields. -/
def empty : ExtraFields := ⟨[], by simp [Json.Normal, Json.NormalMembers], rfl⟩

instance : Inhabited ExtraFields := ⟨empty⟩

/-- The given fields, if all of them are readable; one named more than once keeps its first place
and its last value. -/
def ofMembers? (members : List (String × Json)) : Option ExtraFields :=
  if h : Json.readable (.obj members) then
    some
      { members := (OrderedMap.ofList (Json.normalizeMembers members)).entries
        normal := by simpa only [Json.normalize] using Json.normal_normalize (.obj members)
        readable := by simpa only [Json.normalize] using Json.readable_normalize _ h }
  else none

/-- The object of the fields. -/
def toJson (e : ExtraFields) : Json := .obj e.members

/-- Extra fields are alike when their objects are. -/
instance : Setoid ExtraFields where
  r e f := e.toJson ≈ f.toJson
  iseqv := ⟨fun _ => Setoid.refl _, fun h => Setoid.symm h, fun h k => Setoid.trans h k⟩

instance (e f : ExtraFields) : Decidable (e ≈ f) :=
  decidable_of_iff (e.toJson ≈ f.toJson) Iff.rfl

end ExtraFields

end Stencil
