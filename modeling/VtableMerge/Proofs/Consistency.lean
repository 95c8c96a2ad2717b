import Mathlib.Algebra.BigOperators.Group.List.Basic
import VtableMerge.Proofs.Preservation

/-!
Consistency of the table with the vtables. After any names were resolved in any order, prototypes
are numbered by position and declared once, vtables match the observations slot by slot, and the
table holds exactly the prototypes that the resolved classes add to those of their parents.
-/
namespace VtableMerge.Merge

namespace State

def declaredCount (s : State) (c : ClassNode) : Nat :=
  match s.vtable? c.name with
  | none => 0
  | some slots => slots.length - (s.parentVtable c).length

theorem declaredCount_congr {s t : State} {c : ClassNode}
    (hself : t.vtable? c.name = s.vtable? c.name)
    (hparent : t.parentVtable c = s.parentVtable c) : t.declaredCount c = s.declaredCount c := by
  simp only [declaredCount, hself, hparent]

theorem parentVtable_congr {s t : State} {c : ClassNode}
    (hparent : ∀ parent, c.parent = some parent → t.vtable? parent = s.vtable? parent) :
    t.parentVtable c = s.parentVtable c := by
  unfold parentVtable
  cases hc : c.parent with
  | none => rfl
  | some parent => simp only [Option.bind_some, hparent parent hc]

end State

variable {h : Hierarchy} {store : ObservationStore} {s t : State} {c : ClassNode}

/-- A sum in which the summand of one class grows. -/
theorem sum_map_add_of_mem {nodes : List ClassNode} {f g : ClassNode → Nat} {m : Nat}
    (hnodup : nodes.Nodup) (hmem : c ∈ nodes) (hother : ∀ d ∈ nodes, d ≠ c → g d = f d)
    (hself : g c = f c + m) : (nodes.map g).sum = (nodes.map f).sum + m := by
  obtain ⟨front, back, rfl⟩ := List.append_of_mem hmem
  have hnot : c ∉ front ∧ c ∉ back := by
    have hsplit := List.nodup_append.mp hnodup
    refine ⟨fun hc => hsplit.2.2 c hc c List.mem_cons_self rfl, ?_⟩
    exact (List.nodup_cons.mp hsplit.2.1).1
  have hfront : front.map g = front.map f := List.map_congr_left fun d hd =>
    hother d (by simp [hd]) (ne_of_mem_of_not_mem hd hnot.1)
  have hback : back.map g = back.map f := List.map_congr_left fun d hd =>
    hother d (by simp [hd]) (ne_of_mem_of_not_mem hd hnot.2)
  simp only [List.map_append, List.map_cons, List.sum_append, List.sum_cons, hfront, hback, hself]
  omega

theorem declaredCount_of_laid {observed : List Observation} {slots : List VtableSlot}
    (hc : Ready h store s c) (ht : Laid s c observed slots t)
    (hcyclic : h.isCyclic c.name = false)
    (hlength : (s.parentVtable c).length ≤ observed.length) :
    t.declaredCount c = s.declaredCount c + (observed.length - (s.parentVtable c).length) := by
  have hparent : t.parentVtable c = s.parentVtable c := State.parentVtable_congr fun parent hp =>
    ht.vtable?_of_ne (ne_of_parentName? hcyclic ((h.parentName?_of_get? hc.known).trans hp))
  simp only [State.declaredCount, ht.vtable?_self, hc.vtable?_eq_none, hparent,
    ht.length_eq hlength, Nat.zero_add]

/-- The counts of classes resolved before stay, since none of them has the new class as its
parent. -/
theorem declaredCount_of_laid_of_ne {observed : List Observation} {slots : List VtableSlot}
    (hs : Coherent h store s) (hc : Ready h store s c) (ht : Laid s c observed slots t)
    {d : ClassNode} (hd : d ∈ h.nodes) (hne : d ≠ c) : t.declaredCount d = s.declaredCount d := by
  have hname : d.name ≠ c.name := fun heq =>
    hne (List.inj_on_of_nodup_map h.distinct hd (h.mem_of_get? hc.known) heq)
  have hself := ht.vtable?_of_ne hname
  cases hvtable : s.vtable? d.name with
  | none =>
    rw [hvtable] at hself
    simp only [State.declaredCount, hself, hvtable]
  | some slots' =>
    refine State.declaredCount_congr hself (State.parentVtable_congr fun parent hp => ?_)
    apply ht.vtable?_of_ne
    rintro rfl
    refine parentName?_ne_of_ready hs hc (State.isResolved_iff.mpr ⟨slots', hvtable⟩) ?_
    rw [h.parentName?_of_get? (h.get?_of_mem hd), hp]

/-- A step adds as many prototypes as the class that it settles has slots past its parent's. -/
theorem size_eq_sum_of_settles (hs : Coherent h store s)
    (hsum : s.table.size = (h.nodes.map s.declaredCount).sum) (hc : Ready h store s c)
    (hstep : Settles h store s c t) : t.table.size = (h.nodes.map t.declaredCount).sum := by
  rcases hstep.unlaid_or_laid hc with ht | ⟨observed, slots, ht, -, hcyclic, hlength⟩
  · rw [ht.table_eq, hsum]
    refine congrArg List.sum (List.map_congr_left fun d _ => ?_)
    exact (State.declaredCount_congr (ht.vtable?_eq d.name)
      (State.parentVtable_congr fun parent _ => ht.vtable?_eq parent)).symm
  · rw [ht.size_eq, hsum]
    exact (sum_map_add_of_mem h.distinct.of_map (h.mem_of_get? hc.known)
      (fun d hd hne => declaredCount_of_laid_of_ne hs hc ht hd hne)
      (declaredCount_of_laid hc ht hcyclic hlength)).symm

theorem size_eq_sum_of_leads (hlead : Leads h store State.initial s)
    (hbound : s.table.size < 2 ^ 32) :
    s.table.size = (h.nodes.map s.declaredCount).sum := by
  refine @invariant_of_leads h store s
    (fun s => s.table.size = (h.nodes.map s.declaredCount).sum) ?_
    (fun hs hsum hc hstep _ _ => size_eq_sum_of_settles hs hsum hc hstep) hlead hbound
  have hzero : State.initial.declaredCount = fun _ => 0 := rfl
  rw [hzero, List.map_const', List.sum_replicate_nat, Nat.mul_zero]
  rfl

theorem Coherent.id_index_eq (hs : Coherent h store s) {k : Nat} {p : Prototype}
    (hp : s.table.prototypes[k]? = some p) : p.id.index = k :=
  hs.numbered k p.id p.declaringClass p.slotIndex (by
    rw [PrototypeTable.originAt?, hp]
    rfl)

/-- The slot of the declaring class that a prototype was made for. -/
theorem Coherent.exists_declaring_slot (hs : Coherent h store s) {k : Nat} {p : Prototype}
    (hp : s.table.prototypes[k]? = some p) :
    ∃ slots slot, s.vtable? p.declaringClass = some slots ∧ slots[p.slotIndex]? = some slot ∧
      slot.id = p.id :=
  hs.anchored k p.id p.declaringClass p.slotIndex (by
    rw [PrototypeTable.originAt?, hp]
    rfl)

/-- The prototype that a slot points to. -/
theorem Coherent.exists_prototype (hs : Coherent h store s) {name : String}
    {slots : List VtableSlot} {j : Nat} {slot : VtableSlot}
    (hslots : s.vtable? name = some slots) (hslot : slots[j]? = some slot) :
    ∃ p, s.table.get? slot.id = some p ∧ p.id = slot.id ∧ p.slotIndex = j ∧
      Lineal h s name p.declaringClass := by
  obtain ⟨declaring, horigin, hlineal⟩ := hs.backed name slots j slot hslots hslot
  obtain ⟨p, hp, heq⟩ := Option.map_eq_some_iff.mp horigin
  obtain ⟨hid, hrest⟩ := Prod.mk.inj heq
  obtain ⟨hdeclaring, hindex⟩ := Prod.mk.inj hrest
  exact ⟨p, hp, hid, hindex, by rwa [hdeclaring]⟩

/-- Positions number the prototypes, so no two have one number. -/
theorem Coherent.nodup_ids (hs : Coherent h store s) :
    (s.table.prototypes.map fun p => p.id).Nodup := by
  have hindices : (s.table.prototypes.map fun p => p.id).map ProtoId.index =
      List.range s.table.size := by
    apply List.ext_getElem
    · simp [PrototypeTable.size]
    · intro k hk _
      have hlt : k < s.table.prototypes.length := by simpa using hk
      rw [List.getElem_map, List.getElem_map, List.getElem_range]
      exact hs.id_index_eq (List.getElem?_eq_getElem hlt)
  exact List.Nodup.of_map _ (hindices ▸ List.nodup_range)

/-- A declaring class has one slot at a position, which gives the number of the prototype. -/
theorem Coherent.nodup_declared (hs : Coherent h store s) :
    (s.table.prototypes.map fun p => (p.declaringClass, p.slotIndex)).Nodup := by
  refine List.Nodup.map_on ?_ hs.nodup_ids.of_map
  intro p hp q hq heq
  obtain ⟨hclass, hindex⟩ := Prod.mk.inj heq
  obtain ⟨k, hk⟩ := List.getElem?_of_mem hp
  obtain ⟨l, hl⟩ := List.getElem?_of_mem hq
  obtain ⟨slots, slot, hslots, hslot, hid⟩ := hs.exists_declaring_slot hk
  obtain ⟨slots', slot', hslots', hslot', hid'⟩ := hs.exists_declaring_slot hl
  rw [hclass, hslots', Option.some.injEq] at hslots
  rw [hindex, ← hslots, hslot', Option.some.injEq] at hslot
  have hkl : k = l := by
    rw [← hs.id_index_eq hk, ← hs.id_index_eq hl, ← hid, ← hid', hslot]
  rw [hkl, hl] at hk
  exact (Option.some.inj hk).symm

structure Consistent (h : Hierarchy) (store : ObservationStore) (s : State) : Prop where
  /-- Only classes of the hierarchy are settled. -/
  inside : ∀ name, h.contains name = false → s.outcome? name = none
  /-- A prototype is numbered by its position. -/
  numbered : ∀ k p, s.table.prototypes[k]? = some p → p.id = ProtoId.ofIndex k ∧ p.id.index = k
  /-- No slot of a class is declared twice. -/
  declared_once : (s.table.prototypes.map fun p => (p.declaringClass, p.slotIndex)).Nodup
  /-- A vtable has one slot for each observation. Its numbers ascend, and each slot points to a
  prototype of its own position. -/
  matches_observed : ∀ name slots, s.outcome? name = some (.resolved slots) →
    ∃ observed, store.get? name = some observed ∧ slots.length = observed.length ∧
      (slots.map fun slot => slot.id.index).Pairwise (· < ·) ∧
      ∀ i slot, slots[i]? = some slot → ∃ p, s.table.get? slot.id = some p ∧ p.slotIndex = i
  /-- The declaring class of a prototype is resolved and points to it from the declared slot. -/
  anchored : ∀ p ∈ s.table.prototypes, ∃ slots slot,
    s.outcome? p.declaringClass = some (.resolved slots) ∧
      slots[p.slotIndex]? = some slot ∧ slot.id = p.id ∧ s.table.get? slot.id = some p
  /-- A resolved class has at least the slots of its resolved parent. -/
  inherits : ∀ c ∈ h.nodes, ∀ slots, s.outcome? c.name = some (.resolved slots) →
    (s.parentVtable c).length ≤ slots.length
  /-- The prototypes are those that the resolved classes have past their parents' slots. -/
  size_eq : s.table.size = (h.nodes.map s.declaredCount).sum

theorem Coherent.parentVtable_length_le (hs : Coherent h store s) (hc : c ∈ h.nodes)
    {slots : List VtableSlot} (hslots : s.vtable? c.name = some slots) :
    (s.parentVtable c).length ≤ slots.length := by
  rcases parentVtable_eq_nil_or s c with hnil | ⟨parent, hparent, habove⟩
  · simp [hnil]
  · have hlink := (h.parentName?_of_get? (h.get?_of_mem hc)).trans hparent
    simpa only [List.length_map] using (hs.inherited _ _ _ _ hslots hlink habove).length_le

/-- Whatever names are resolved, the table and the vtables agree, as long as there are numbers
for all prototypes. -/
theorem consistent_resolveAll (h : Hierarchy) (store : ObservationStore) (names : List String)
    (hbound : (resolveAll h store names).table.size < 2 ^ 32) :
    Consistent h store (resolveAll h store names) := by
  have hlead := @leads_resolveAll h store names
  have hs := coherent_of_leads hlead hbound
  refine {
    inside := hs.inside
    numbered := ?_
    declared_once := hs.nodup_declared
    matches_observed := ?_
    anchored := ?_
    inherits := ?_
    size_eq := size_eq_sum_of_leads hlead hbound }
  · intro k p hp
    have hindex := hs.id_index_eq hp
    have hlt : k < 2 ^ 32 := by
      have hk := (List.getElem?_eq_some_iff.mp hp).1
      exact Nat.lt_trans hk hbound
    exact ⟨ProtoId.index_injective (hindex.trans (ProtoId.index_ofIndex hlt).symm), hindex⟩
  · intro name slots houtcome
    have hslots := State.vtable?_eq_some_iff.mpr houtcome
    obtain ⟨observed, hobs, hlength, -⟩ := hs.observed name slots hslots
    refine ⟨observed, hobs, hlength, hs.ascending name slots hslots, fun i slot hslot => ?_⟩
    obtain ⟨p, hp, -, hindex, -⟩ := hs.exists_prototype hslots hslot
    exact ⟨p, hp, hindex⟩
  · intro p hp
    obtain ⟨k, hk⟩ := List.getElem?_of_mem hp
    obtain ⟨slots, slot, hslots, hslot, hid⟩ := hs.exists_declaring_slot hk
    refine ⟨slots, slot, State.vtable?_eq_some_iff.mp hslots, hslot, hid, ?_⟩
    rw [PrototypeTable.get?, hid, hs.id_index_eq hk, hk]
  · intro c hc slots houtcome
    exact hs.parentVtable_length_le hc (State.vtable?_eq_some_iff.mpr houtcome)

/-- A small forest: two classes below a common root, one below it through a class that is not
observed, one that is its own parent and one whose parent is missing. -/
def sampleHierarchy : Hierarchy :=
  { nodes :=
      [⟨"Disk", some "Device", false, none⟩, ⟨"Device", none, true, none⟩,
        ⟨"Tape", some "Device", false, none⟩, ⟨"Ghost", some "Device", false, none⟩,
        ⟨"Shade", some "Ghost", false, none⟩, ⟨"Loop", some "Loop", false, none⟩,
        ⟨"Stray", some "Lost", false, none⟩]
    distinct := by decide }

/-- Observations of the small forest. Tape has fewer slots than its parent. -/
def sampleStore : ObservationStore :=
  ⟨[("Device", ⟨"a", [.concrete 0 "open", .pureVirtual 1]⟩),
    ("Disk", ⟨"a", [.concrete 0 "close", .concrete 1 "read", .concrete 2 "seek"]⟩),
    ("Tape", ⟨"b", [.concrete 0 "rewind"]⟩), ("Shade", ⟨"b", [.concrete 0 "dim"]⟩),
    ("Loop", ⟨"b", [.concrete 0 "spin"]⟩), ("Stray", ⟨"b", [.concrete 0 "roam"]⟩)]⟩

/-- Resolving Disk settles Device first. Loop and Tape fail and declare nothing. -/
theorem consistent_resolveAll_sample :
    (resolveAll sampleHierarchy sampleStore ["Disk", "Loop", "Tape", "Shade", "Nobody"]).table.size
        < 2 ^ 32 ∧
      ((resolveAll sampleHierarchy sampleStore
        ["Disk", "Loop", "Tape", "Shade", "Nobody"]).vtable? "Disk").map (List.map VtableSlot.id) =
          some [⟨0⟩, ⟨1⟩, ⟨2⟩] ∧
      (resolveAll sampleHierarchy sampleStore
        ["Disk", "Loop", "Tape", "Shade", "Nobody"]).table.prototypes.map Prototype.origin =
          [(⟨0⟩, "Device", 0), (⟨1⟩, "Device", 1), (⟨2⟩, "Disk", 2), (⟨3⟩, "Shade", 0)] ∧
      Consistent sampleHierarchy sampleStore
        (resolveAll sampleHierarchy sampleStore ["Disk", "Loop", "Tape", "Shade", "Nobody"]) :=
  ⟨by decide, by decide, by decide, consistent_resolveAll sampleHierarchy sampleStore _ (by decide)⟩

def sampleState : State :=
  resolveAll sampleHierarchy sampleStore (sampleHierarchy.nodes.map ClassNode.name)

end VtableMerge.Merge
