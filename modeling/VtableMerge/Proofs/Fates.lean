import VtableMerge.Proofs.Settling

/-!
What becomes of a class, told by its ancestry alone. `Fated` reads the fate of a class off the
classes above it and their observations, without any table and any order of settling. Hierarchies
and stores that agree above a class give it one fate.
-/
namespace VtableMerge

def Diagnostics.aboutClass (ds : Diagnostics) (name : String) : Diagnostics :=
  ds.filter fun d => d.className == name && d.kind.category != .conflict

namespace Merge

/-- A slot of a vtable with the declaring class and position of its prototype in place of the
number. -/
structure SlotView where
  declaringClass : String
  slotIndex : Nat
  isOverridden : Bool
  isPureVirtual : Bool
  mangledName : Option String
deriving DecidableEq

namespace SlotView

def declared (v : SlotView) : String × Nat := (v.declaringClass, v.slotIndex)

def ofSlot (declared : String × Nat) (slot : VtableSlot) : SlotView :=
  ⟨declared.1, declared.2, slot.isOverridden, slot.isPureVirtual, slot.mangledName⟩

def ofTable? (table : PrototypeTable) (slot : VtableSlot) : Option SlotView :=
  (table.get? slot.id).map fun p => ofSlot (p.declaringClass, p.slotIndex) slot

end SlotView

/-- An outcome without the numbers of prototypes. -/
inductive Fate
  | resolved (slots : List SlotView)
  | unobserved
  | failed
deriving DecidableEq

inductive Shows (table : PrototypeTable) : Outcome → Fate → Prop
  | resolved {slots : List VtableSlot} {views : List SlotView}
      (hviews : slots.map (SlotView.ofTable? table) = views.map some) :
      Shows table (.resolved slots) (.resolved views)
  | unobserved : Shows table .unobserved .unobserved
  | failed : Shows table .failed .failed

def viewSlots (className : String) (above : List SlotView) (observed : List Observation) :
    List SlotView :=
  List.zipWith
    (fun declared o => SlotView.ofSlot declared (VtableSlot.ofObservation (ProtoId.ofIndex 0) o))
    (above.map SlotView.declared ++
      (List.range (observed.length - above.length)).map fun j => (className, above.length + j))
    observed

def fateBelow (className parent : String) (observed : List Observation) :
    Fate → Fate × Diagnostics
  | .unobserved => (.resolved (viewSlots className [] observed), [])
  | .failed => (.failed, [unresolvedAncestor className parent])
  | .resolved above =>
    if observed.length < above.length then
      (.failed, [slotCountShrink className parent above.length observed.length])
    else (.resolved (viewSlots className above observed), [])

/-- What a class becomes, given the fate of its parent, which matters only where the class is
settled after it. -/
def fateOf (h : Hierarchy) (store : ObservationStore) (c : ClassNode) (above : Fate) :
    Fate × Diagnostics :=
  match store.get? c.name with
  | none => (.unobserved, [])
  | some observed =>
    if h.isCyclic c.name then (.failed, [cyclicAncestry c.name])
    else
      match c.parent with
      | none => (.resolved (viewSlots c.name [] observed), [])
      | some parent =>
        if h.contains parent then fateBelow c.name parent observed above
        else (.resolved (viewSlots c.name [] observed), [missingParent c.name parent])

inductive Fated (h : Hierarchy) (store : ObservationStore) : String → Fate × Diagnostics → Prop
  | intro {c : ClassNode} {above : Fate × Diagnostics} (hc : h.get? c.name = some c)
      (habove : needsParent h store c.name = true → ∀ parent, c.parent = some parent →
        h.contains parent = true → Fated h store parent above) :
      Fated h store c.name (fateOf h store c above.1)

/-- Two hierarchies have the same classes with the same parent links from a class upward, and
each of these classes has the same observations in both stores. -/
structure SameAncestry (h h' : Hierarchy) (store store' : ObservationStore) (name : String) :
    Prop where
  parents : ∀ n passed, h.climb n name = some passed →
    (h.get? passed).map ClassNode.parent = (h'.get? passed).map ClassNode.parent
  observations : ∀ n passed, h.climb n name = some passed → h.contains passed = true →
    store.get? passed = store'.get? passed

namespace SameAncestry
variable {h h' : Hierarchy} {store store' : ObservationStore} {name : String}

theorem contains_eq (hsame : SameAncestry h h' store store' name) {n : Nat} {passed : String}
    (hpassed : h.climb n name = some passed) : h'.contains passed = h.contains passed := by
  have hparents := congrArg Option.isSome (hsame.parents n passed hpassed)
  simpa only [Hierarchy.contains, Option.isSome_map] using hparents.symm

theorem parentName?_eq (hsame : SameAncestry h h' store store' name) {n : Nat} {passed : String}
    (hpassed : h.climb n name = some passed) :
    h'.parentName? passed = h.parentName? passed := by
  have hparents := congrArg (Option.bind · id) (hsame.parents n passed hpassed)
  simpa only [Hierarchy.parentName?, Option.bind_map, Function.id_comp] using hparents.symm

theorem climb_eq (hsame : SameAncestry h h' store store' name) (n : Nat) :
    h'.climb n name = h.climb n name := by
  induction n with
  | zero => rfl
  | succ n ih =>
    rw [h'.climb_succ_last, h.climb_succ_last, ih]
    cases hpassed : h.climb n name with
    | none => rfl
    | some passed => exact hsame.parentName?_eq hpassed

theorem above (hsame : SameAncestry h h' store store' name) {parent : String}
    (hparent : h.parentName? name = some parent) :
    SameAncestry h h' store store' parent := by
  have hstep : ∀ n, h.climb (n + 1) name = h.climb n parent := fun n => by
    rw [Hierarchy.climb, hparent, Option.bind_some]
  exact {
    parents := fun n passed hpassed => hsame.parents (n + 1) passed ((hstep n).trans hpassed)
    observations := fun n passed hpassed =>
      hsame.observations (n + 1) passed ((hstep n).trans hpassed) }

theorem isCyclic_eq (hsame : SameAncestry h h' store store' name) :
    h'.isCyclic name = h.isCyclic name := by
  rw [Bool.eq_iff_iff, h'.isCyclic_iff_climb, h.isCyclic_iff_climb]
  simp only [hsame.climb_eq]

/-- As many steps as there are classes tell whether the ancestries are the same. -/
theorem of_le_size
    (hparents : ∀ n ≤ h.size, ∀ passed, h.climb n name = some passed →
      (h.get? passed).map ClassNode.parent = (h'.get? passed).map ClassNode.parent)
    (hobs : ∀ n ≤ h.size, ∀ passed, h.climb n name = some passed →
      h.contains passed = true → store.get? passed = store'.get? passed) :
    SameAncestry h h' store store' name := by
  have hshort : ∀ n passed, h.climb n name = some passed →
      ∃ k ≤ h.size, h.climb k name = some passed := by
    intro n passed hpassed
    rcases Nat.eq_zero_or_pos n with rfl | hpos
    · exact ⟨0, Nat.zero_le _, hpassed⟩
    · obtain ⟨k, -, hk, hclimb⟩ := h.exists_climb_le_size hpos hpassed
      exact ⟨k, hk, hclimb⟩
  constructor
  · intro n passed hpassed
    obtain ⟨k, hk, hclimb⟩ := hshort n passed hpassed
    exact hparents k hk passed hclimb
  · intro n passed hpassed
    obtain ⟨k, hk, hclimb⟩ := hshort n passed hpassed
    exact hobs k hk passed hclimb

end SameAncestry

section Determined
variable {h h' : Hierarchy} {store store' : ObservationStore}

/-- The fate of the parent matters only if the class is settled after it. -/
theorem fateOf_congr {c c' : ClassNode} {above above' : Fate} (hname : c'.name = c.name)
    (hparent : c'.parent = c.parent) (hobs : store'.get? c.name = store.get? c.name)
    (hcyclic : h'.isCyclic c.name = h.isCyclic c.name)
    (hcontains : ∀ parent, c.parent = some parent → h'.contains parent = h.contains parent)
    (habove : needsParent h store c.name = true → ∀ parent, c.parent = some parent →
      h.contains parent = true → above' = above) :
    fateOf h' store' c' above' = fateOf h store c above := by
  simp only [fateOf, hname, hparent, hobs, hcyclic]
  split
  · rfl
  · next observed hobserved =>
    split
    · rfl
    · next hacyclic =>
      split
      · rfl
      · next parent hp =>
        rw [hcontains parent hp]
        split
        · next hinside =>
          have hneeds : needsParent h store c.name = true := by
            simp [needsParent, ObservationStore.contains, hobserved, hacyclic]
          rw [habove hneeds parent hp hinside]
        · rfl

/-- Hierarchies and stores that agree above a class give it one fate. -/
theorem fated_unique {name : String} {result result' : Fate × Diagnostics}
    (hsame : SameAncestry h h' store store' name) (hfate : Fated h store name result)
    (hfate' : Fated h' store' name result') : result' = result := by
  induction hfate generalizing result' with
  | @intro c above hc habove ih =>
    generalize hname : c.name = name at hfate'
    cases hfate' with
    | @intro c' above' hc' habove' =>
      have hself : h.climb 0 c.name = some c.name := rfl
      have hlink := h.parentName?_of_get? hc
      have hparent : c'.parent = c.parent := by
        rw [← hlink, ← hsame.parentName?_eq hself, hname, h'.parentName?_of_get? hc']
      have hclimb : ∀ parent, c.parent = some parent → h.climb 1 c.name = some parent :=
        fun parent hp => (h.climb_one _).trans (hlink.trans hp)
      have hobs : store'.get? c.name = store.get? c.name :=
        (hsame.observations 0 c.name hself (h.contains_iff_exists.mpr ⟨c, hc⟩)).symm
      refine fateOf_congr hname.symm hparent hobs hsame.isCyclic_eq
        (fun parent hp => hsame.contains_eq (hclimb parent hp)) ?_
      intro hneeds parent hp hinside
      have hneeds' : needsParent h' store' c'.name = true := by
        simpa only [needsParent, ObservationStore.contains, ← hname, hobs, hsame.isCyclic_eq]
          using hneeds
      have hinside' : h'.contains parent = true :=
        (hsame.contains_eq (hclimb parent hp)).trans hinside
      exact congrArg Prod.fst (ih hneeds parent hp hinside (hsame.above (hlink.trans hp))
        (habove' hneeds' parent (hparent.trans hp) hinside'))

end Determined

end Merge

end VtableMerge
