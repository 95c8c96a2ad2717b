import VtableMerge.Proofs.Layout
import VtableMerge.Proofs.Settling

/-!
The invariant of a merge. Every slot of a vtable points to a prototype of its own position, which
a class above declares that is reached through resolved classes only, and every prototype is the
one at its place in the vtable of the class that declares it. A child's vtable starts with its
parent's. The numbers of a vtable ascend, because new prototypes come behind all others.
-/
namespace VtableMerge

def PrototypeTable.originAt? (table : PrototypeTable) (k : Nat) :
    Option (ProtoId × String × Nat) :=
  table.prototypes[k]?.map Prototype.origin

theorem PrototypeTable.originAt?_lt_size {table : PrototypeTable} {k : Nat}
    {origin : ProtoId × String × Nat} (hk : table.originAt? k = some origin) : k < table.size := by
  obtain ⟨p, hp, -⟩ := Option.map_eq_some_iff.mp hk
  exact (List.getElem?_eq_some_iff.mp hp).1

namespace Merge

/-- A class is linked to another one by parent links through resolved classes only, both ends
included. -/
inductive Lineal (h : Hierarchy) (s : State) : String → String → Prop
  | self {name : String} (hname : s.isResolved name = true) : Lineal h s name name
  | up {name parent above : String} (hname : s.isResolved name = true)
      (hparent : h.parentName? name = some parent) (habove : Lineal h s parent above) :
      Lineal h s name above

theorem Lineal.mono {h : Hierarchy} {s t : State} {name above : String}
    (hresolved : ∀ other, s.isResolved other = true → t.isResolved other = true)
    (hlineal : Lineal h s name above) : Lineal h t name above := by
  induction hlineal with
  | self hname => exact Lineal.self (hresolved _ hname)
  | up hname hparent _ ih => exact Lineal.up (hresolved _ hname) hparent ih

theorem Lineal.isResolved_left {h : Hierarchy} {s : State} {name above : String}
    (hlineal : Lineal h s name above) : s.isResolved name = true := by
  cases hlineal with
  | self hname => exact hname
  | up hname _ _ => exact hname

theorem Lineal.isResolved_right {h : Hierarchy} {s : State} {name above : String}
    (hlineal : Lineal h s name above) : s.isResolved above = true := by
  induction hlineal with
  | self hname => exact hname
  | up _ _ _ ih => exact ih

structure Coherent (h : Hierarchy) (store : ObservationStore) (s : State) : Prop where
  inside : Inside h s
  supported : ∀ name parent, s.isResolved name = true → h.parentName? name = some parent →
    h.contains parent = true → (s.outcome? parent).isSome = true
  acyclic : ∀ name, s.isResolved name = true → h.isCyclic name = false
  observed : ∀ name slots, s.vtable? name = some slots → ∃ observed,
    store.get? name = some observed ∧ slots.length = observed.length ∧
      slots = List.zipWith VtableSlot.ofObservation (slots.map VtableSlot.id) observed
  inherited : ∀ name parent slots above, s.vtable? name = some slots →
    h.parentName? name = some parent → s.vtable? parent = some above →
    above.map VtableSlot.id <+: slots.map VtableSlot.id
  numbered : ∀ k id declaring slotIndex,
    s.table.originAt? k = some (id, declaring, slotIndex) → id.index = k
  ascending : ∀ name slots, s.vtable? name = some slots →
    (slots.map fun slot => slot.id.index).Pairwise (· < ·)
  backed : ∀ name slots j slot, s.vtable? name = some slots → slots[j]? = some slot →
    ∃ declaring, s.table.originAt? slot.id.index = some (slot.id, declaring, j) ∧
      Lineal h s name declaring
  anchored : ∀ k id declaring slotIndex,
    s.table.originAt? k = some (id, declaring, slotIndex) →
    ∃ slots slot, s.vtable? declaring = some slots ∧ slots[slotIndex]? = some slot ∧
      slot.id = id

theorem coherent_initial (h : Hierarchy) (store : ObservationStore) :
    Coherent h store State.initial where
  inside := inside_initial h
  supported _ _ hname := by cases hname
  acyclic _ hname := by cases hname
  observed _ _ hslots := by cases hslots
  inherited _ _ _ _ hslots := by cases hslots
  numbered _ _ _ _ hk := by cases hk
  ascending _ _ hslots := by cases hslots
  backed _ _ _ _ hslots := by cases hslots
  anchored _ _ _ _ hk := by cases hk

end Merge

end VtableMerge
