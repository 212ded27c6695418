/-!
# Lists compared item by item

Two lists are related when they have the same length and the items at the same places are related.

* `Listwise` — for any relation between items;
* `AllAlike` — for the relation `≈`.
-/

namespace Stencil

variable {α β : Type}

/-- The lists have the same length, and `r` relates the items at the same places. -/
def Listwise (r : α → β → Prop) : List α → List β → Prop
  | [], [] => True
  | a :: as, b :: bs => r a b ∧ Listwise r as bs
  | _, _ => False

namespace Listwise

theorem refl {r : α → α → Prop} (hr : ∀ a, r a a) : (as : List α) → Listwise r as as
  | [] => trivial
  | a :: as => ⟨hr a, refl hr as⟩

theorem symm {r : α → α → Prop} (hr : ∀ a b, r a b → r b a) :
    {as bs : List α} → Listwise r as bs → Listwise r bs as
  | [], [], _ => trivial
  | _ :: _, _ :: _, h => ⟨hr _ _ h.1, symm hr h.2⟩

theorem trans {r : α → α → Prop} (hr : ∀ a b c, r a b → r b c → r a c) :
    {as bs cs : List α} → Listwise r as bs → Listwise r bs cs → Listwise r as cs
  | [], [], [], _, _ => trivial
  | _ :: _, _ :: _, _ :: _, h, h' => ⟨hr _ _ _ h.1 h'.1, trans hr h.2 h'.2⟩

instance instDecidable (r : α → β → Prop) [∀ a b, Decidable (r a b)] :
    (as : List α) → (bs : List β) → Decidable (Listwise r as bs)
  | [], [] => .isTrue trivial
  | a :: as, b :: bs =>
    have := instDecidable r as bs
    decidable_of_iff (r a b ∧ Listwise r as bs) Iff.rfl
  | [], _ :: _ => .isFalse id
  | _ :: _, [] => .isFalse id

end Listwise

/-- The items at the same places are alike, and there are equally many. -/
def AllAlike [Setoid α] (as bs : List α) : Prop := Listwise (fun a b => a ≈ b) as bs

namespace AllAlike

variable [Setoid α]

theorem refl (as : List α) : AllAlike as as := Listwise.refl Setoid.refl as

theorem symm {as bs : List α} (h : AllAlike as bs) : AllAlike bs as :=
  Listwise.symm (r := fun a b => a ≈ b) (fun _ _ => Setoid.symm) h

theorem trans {as bs cs : List α} (h : AllAlike as bs) (h' : AllAlike bs cs) : AllAlike as cs :=
  Listwise.trans (r := fun a b => a ≈ b) (fun _ _ _ => Setoid.trans) h h'

instance [∀ a b : α, Decidable (a ≈ b)] (as bs : List α) : Decidable (AllAlike as bs) :=
  Listwise.instDecidable _ as bs

end AllAlike

end Stencil
