import Mathlib.Algebra.Order.BigOperators.Group.List
import VtableMerge.Proofs.Agreement
import VtableMerge.Proofs.Contributions
import VtableMerge.Proofs.SameLinks

/-!
What does not depend on the order in which classes stand in the hierarchy and in which names are
resolved, once all classes are settled: which classes are resolved, which slots they declare,
how many prototypes there are and what the linked classes tell about each slot.
-/
namespace VtableMerge

namespace Merge

section Document
variable {h h' : Hierarchy} {store : ObservationStore}

theorem Lineal.of_parentName?_eq (hlinks : ∀ name, h'.parentName? name = h.parentName? name)
    {s : State} {name above : String} (hlineal : Lineal h s name above) :
    Lineal h' s name above := by
  induction hlineal with
  | self hname => exact Lineal.self hname
  | up hname hparent _ ih => exact Lineal.up hname ((hlinks _).trans hparent) ih

theorem lineal_iff_of_perm (hperm : h'.nodes.Perm h.nodes) {s : State} {name above : String} :
    Lineal h' s name above ↔ Lineal h s name above := by
  have hlinks := (Hierarchy.sameLinks_of_perm hperm).parentName?_eq
  exact ⟨Lineal.of_parentName?_eq fun other => (hlinks other).symm,
    Lineal.of_parentName?_eq hlinks⟩

theorem contributions_perm (hperm : h'.nodes.Perm h.nodes) (s : State) (declaring : String)
    (slotIndex : Nat) : (contributions h' store s declaring slotIndex).Perm
      (contributions h store s declaring slotIndex) := by
  simp only [contributions, lineal_iff_of_perm hperm]
  exact ((hperm.map ClassNode.name).filter _).flatMap_right _

end Document

section Complete
variable {h : Hierarchy} {store : ObservationStore} {s t u : State} {c : ClassNode}

structure Complete (h : Hierarchy) (store : ObservationStore) (s : State) : Prop where
  coherent : Coherent h store s
  agrees : Agrees h store s
  settled : ∀ name, h.contains name = true → (s.outcome? name).isSome = true
  size_eq : s.table.size = (h.nodes.map s.declaredCount).sum

theorem complete_resolveAll {names : List String} (hcover : ∀ c ∈ h.nodes, c.name ∈ names)
    (hbound : (resolveAll h store names).table.size < 2 ^ 32) :
    Complete h store (resolveAll h store names) where
  coherent := coherent_of_leads (leads_resolveAll names) hbound
  agrees := agrees_of_leads (leads_resolveAll names) hbound
  settled name hname := by
    obtain ⟨c, hc⟩ := h.contains_iff_exists.mp hname
    refine resolveAll_outcome?_isSome ?_ hname
    rw [← h.name_of_get? hc]
    exact hcover c (h.mem_of_get? hc)
  size_eq := size_eq_sum_of_leads (leads_resolveAll names) hbound

theorem SameAncestry.refl (h : Hierarchy) (store : ObservationStore) (name : String) :
    SameAncestry h h store store name := ⟨fun _ _ _ => rfl, fun _ _ _ _ => rfl⟩

/-- Whatever the order, a class has one fate. -/
theorem Complete.exists_outcome (hs : Complete h store s) {name : String} {fate : Fate}
    {findings : Diagnostics} (hname : h.contains name = true)
    (hfate : Fated h store name (fate, findings)) :
    ∃ o, s.outcome? name = some o ∧ Shows s.table o fate := by
  obtain ⟨o, ho⟩ := Option.isSome_iff_exists.mp (hs.settled name hname)
  obtain ⟨fate', hfate', hshows⟩ := hs.agrees.settled name o ho
  obtain ⟨rfl, -⟩ := Prod.mk.inj (fated_unique (SameAncestry.refl h store name) hfate hfate')
  exact ⟨o, ho, hshows⟩

/-- A vtable of an unfinished merge has its counterpart once all classes are settled. -/
theorem Complete.exists_vtable (hs : Complete h store s) (hu : Agrees h store u)
    (hinside : Inside h u) {name : String} {slots : List VtableSlot}
    (hslots : u.vtable? name = some slots) :
    ∃ (slots' : List VtableSlot) (views : List SlotView), s.vtable? name = some slots' ∧
      slots.map (SlotView.ofTable? u.table) = views.map some ∧
      slots'.map (SlotView.ofTable? s.table) = views.map some := by
  have hname := contains_of_isResolved hinside (State.isResolved_iff.mpr ⟨slots, hslots⟩)
  rw [State.vtable?_eq_some_iff] at hslots
  obtain ⟨fate, hfate, hshows⟩ := hu.settled name _ hslots
  obtain ⟨o, ho, hshows'⟩ := hs.exists_outcome hname hfate
  cases hshows with
  | @resolved _ views hviews =>
    cases hshows' with
    | @resolved slots' _ hviews' =>
      exact ⟨slots', views, State.vtable?_eq_some_iff.mpr ho, hviews, hviews'⟩

theorem Complete.isResolved_of_isResolved (hs : Complete h store s) (hu : Agrees h store u)
    (hinside : Inside h u) {name : String} (hname : u.isResolved name = true) :
    s.isResolved name = true := by
  obtain ⟨slots, hslots⟩ := State.isResolved_iff.mp hname
  obtain ⟨slots', -, hslots', -⟩ := hs.exists_vtable hu hinside hslots
  exact State.isResolved_iff.mpr ⟨slots', hslots'⟩

theorem Complete.isResolved_eq (hs : Complete h store s) (ht : Complete h store t)
    (name : String) : s.isResolved name = t.isResolved name := by
  rw [Bool.eq_iff_iff]
  exact ⟨ht.isResolved_of_isResolved hs.agrees hs.coherent.inside,
    hs.isResolved_of_isResolved ht.agrees ht.coherent.inside⟩

theorem Complete.lineal_iff (hs : Complete h store s) (ht : Complete h store t)
    {name above : String} : Lineal h s name above ↔ Lineal h t name above :=
  ⟨fun hlineal => hlineal.mono fun other hother => hs.isResolved_eq ht other ▸ hother,
    fun hlineal => hlineal.mono fun other hother => (hs.isResolved_eq ht other).symm ▸ hother⟩

/-- What is told about a slot does not depend on the order. -/
theorem Complete.contributions_eq (hs : Complete h store s) (ht : Complete h store t)
    (declaring : String) (slotIndex : Nat) :
    contributions h store s declaring slotIndex = contributions h store t declaring slotIndex := by
  simp only [contributions, hs.lineal_iff ht]

/-- The same slots are declared in any order. -/
theorem Complete.exists_declared (hs : Complete h store s) (ht : Complete h store t)
    {p : Prototype} (hp : p ∈ s.table.prototypes) : ∃ q ∈ t.table.prototypes,
      q.declaringClass = p.declaringClass ∧ q.slotIndex = p.slotIndex := by
  obtain ⟨k, hk⟩ := List.getElem?_of_mem hp
  obtain ⟨slots, slot, hslots, hslot, hid⟩ := hs.coherent.exists_declaring_slot hk
  obtain ⟨slots', views, -, hviews, hviews'⟩ :=
    ht.exists_vtable hs.agrees hs.coherent.inside hslots
  have hview := congrArg (·[p.slotIndex]?) (hviews.trans hviews'.symm)
  have hget : s.table.get? slot.id = some p := by
    rw [PrototypeTable.get?, hid, hs.coherent.id_index_eq hk, hk]
  simp only [List.getElem?_map, hslot, Option.map_some, SlotView.ofTable?, hget] at hview
  obtain ⟨slot', -, hview⟩ := Option.map_eq_some_iff.mp hview.symm
  obtain ⟨q, hq, hdeclared⟩ := Option.map_eq_some_iff.mp hview
  refine ⟨q, List.mem_of_getElem? hq, ?_⟩
  exact ⟨congrArg SlotView.declaringClass hdeclared, congrArg SlotView.slotIndex hdeclared⟩

theorem vtable_length_eq (hs : Coherent h store s) (hu : Coherent h store u) {name : String}
    {slots slots' : List VtableSlot} (hslots : u.vtable? name = some slots)
    (hslots' : s.vtable? name = some slots') : slots'.length = slots.length := by
  obtain ⟨observed, hobs, hlength, -⟩ := hu.observed name slots hslots
  obtain ⟨observed', hobs', hlength', -⟩ := hs.observed name slots' hslots'
  obtain rfl : observed = observed' := Option.some.inj (hobs.symm.trans hobs')
  rw [hlength, hlength']

/-- A class whose parent is settled inherits all that it will ever inherit. -/
theorem Complete.parentVtable_length_le (hs : Complete h store s) (hu : Agrees h store u)
    (hcoherent : Coherent h store u)
    (hparent : ∀ parent, c.parent = some parent → h.contains parent = true →
      (u.outcome? parent).isSome = true) :
    (s.parentVtable c).length ≤ (u.parentVtable c).length := by
  rcases parentVtable_eq_nil_or s c with hnil | ⟨parent, hp, hslots⟩
  · simp [hnil]
  · have hcontains := contains_of_isResolved hs.coherent.inside
      (State.isResolved_iff.mpr ⟨_, hslots⟩)
    obtain ⟨o, ho⟩ := Option.isSome_iff_exists.mp (hparent parent hp hcontains)
    obtain ⟨fate, hfate, hshows⟩ := hu.settled parent o ho
    obtain ⟨o', ho', hshows'⟩ := hs.exists_outcome hcontains hfate
    rw [State.vtable?_eq_some_iff.mp hslots, Option.some.injEq] at ho'
    subst ho'
    cases hshows' with
    | resolved _ =>
      cases hshows with
      | @resolved slots _ _ =>
        have hfound : u.vtable? parent = some slots := State.vtable?_eq_some_iff.mpr ho
        have hvtable : u.parentVtable c = slots := by
          simp only [State.parentVtable, hp, Option.bind_some, hfound, Option.getD_some]
        rw [hvtable, vtable_length_eq hs.coherent hcoherent hfound hslots]

/-- A class declares the same number of slots in any order. -/
theorem Complete.declaredCount_le (hs : Complete h store s) (hu : Agrees h store u)
    (hcoherent : Coherent h store u) (hc : c ∈ h.nodes) :
    u.declaredCount c ≤ s.declaredCount c := by
  cases hslots : u.vtable? c.name with
  | none => simp [State.declaredCount, hslots]
  | some slots =>
    obtain ⟨slots', -, hslots', -⟩ := hs.exists_vtable hu hcoherent.inside hslots
    have hlength := vtable_length_eq hs.coherent hcoherent hslots hslots'
    have hresolved : u.isResolved c.name = true := State.isResolved_iff.mpr ⟨slots, hslots⟩
    have hle := hs.parentVtable_length_le hu hcoherent (c := c) fun parent hp hcontains =>
      hcoherent.supported c.name parent hresolved
        ((h.parentName?_of_get? (h.get?_of_mem hc)).trans hp) hcontains
    simp only [State.declaredCount, hslots, hslots', hlength]
    omega

/-- The class that is resolved next declares as many slots as it does in any other order. -/
theorem Complete.fresh_le (hs : Complete h store s) (hu : Agrees h store u)
    (hcoherent : Coherent h store u) (hc : Ready h store u c) {observed : List Observation}
    (hobs : store.get? c.name = some observed) (hcyclic : h.isCyclic c.name = false)
    (hparent : ∀ parent, c.parent = some parent → u.outcome? parent ≠ some .failed)
    (hlength : (u.parentVtable c).length ≤ observed.length) :
    observed.length - (u.parentVtable c).length ≤ s.declaredCount c := by
  have hneeds : needsParent h store c.name = true := by
    simp [needsParent, ObservationStore.contains, hobs, hcyclic]
  obtain ⟨above, habove⟩ := exists_fate_above hu hc
  obtain ⟨views, -, hfate⟩ := exists_views_of_resolved hcoherent.inside hobs hcyclic hparent
    hlength fun parent hp hcontains => (habove hneeds parent hp hcontains).2
  have hfated : Fated h store c.name (fateOf h store c above.1) :=
    Fated.intro hc.known fun hneeds parent hp hcontains =>
      (habove hneeds parent hp hcontains).1
  rw [hfate] at hfated
  obtain ⟨o, ho, hshows⟩ := hs.exists_outcome (h.contains_iff_exists.mpr ⟨c, hc.known⟩) hfated
  cases hshows with
  | @resolved slots _ _ =>
    have hslots : s.vtable? c.name = some slots := State.vtable?_eq_some_iff.mpr ho
    obtain ⟨observed', hobs', hlength', -⟩ := hs.coherent.observed c.name slots hslots
    obtain rfl : observed = observed' := Option.some.inj (hobs.symm.trans hobs')
    have hle := hs.parentVtable_length_le hu hcoherent (c := c) (hc.supported hneeds)
    simp only [State.declaredCount, hslots, hlength']
    omega

/-- No order leads to more prototypes than another one. -/
theorem Complete.size_le_of_leads (hs : Complete h store s) (hbound : s.table.size < 2 ^ 32)
    (hlead : Leads h store State.initial u) : u.table.size ≤ s.table.size := by
  induction hlead with
  | refl => exact Nat.zero_le _
  | @settle u c hlead hc ih =>
    have hbound' := Nat.lt_of_le_of_lt ih hbound
    have hcoherent := coherent_of_leads hlead hbound'
    have hu := agrees_of_leads hlead hbound'
    have hstep := @settles_settle h store u hcoherent.inside c
    have hsize := size_eq_sum_of_settles hcoherent (size_eq_sum_of_leads hlead hbound') hc hstep
    generalize settle h store u c = t at hstep hsize ⊢
    cases hstep with
    | resolved observed hobs hcyclic hparent hlength =>
      obtain ⟨slots, ht⟩ := laid_layClass u c (rootFindings h c) hlength
      have hfresh := hs.fresh_le hu hcoherent hc hobs hcyclic hparent hlength
      rw [hsize, hs.size_eq]
      refine List.sum_le_sum fun d hd => ?_
      by_cases hself : d = c
      · have hnone : u.declaredCount c = 0 := by
          simp only [State.declaredCount, hc.vtable?_eq_none]
        rw [hself, declaredCount_of_laid hc ht hcyclic hlength, hnone, Nat.zero_add]
        exact hfresh
      · rw [declaredCount_of_laid_of_ne hcoherent hc ht hd hself]
        exact hs.declaredCount_le hu hcoherent hd
    | unobserved => exact ih
    | cyclic => exact ih
    | orphaned => exact ih
    | shrunk => exact ih

end Complete

end Merge

end VtableMerge
