import VtableMerge.Proofs.Contributions
import VtableMerge.Proofs.Owners
import VtableMerge.Proofs.TablePasses
import VtableMerge.Run

/-!
What is shown of a class after a merge. The exported tables keep the parent links and the vtables
of the merge, and the passes over the prototypes keep their numbers and slots. So the effective
vtable of a class is that of the nearest resolved class above, slot by slot, and every slot has
its prototype.
-/
namespace VtableMerge

namespace Prototype

def exported (fixGetters : Bool) (p : Prototype) : Prototype :=
  let fixed := if fixGetters then p.withoutVoidReturn?.getD p else p
  fixed.withPlaceholderName?.getD fixed

/-- The passes keep the number, the declaring class and the slot. -/
theorem exported_origin (fixGetters : Bool) (p : Prototype) :
    (p.exported fixGetters).origin = p.origin := by
  cases fixGetters with
  | true =>
    exact ((revised_getD revised_of_withoutVoidReturn? p).trans
      (revised_getD revised_of_withPlaceholderName? _)).origin
  | false => exact (revised_getD revised_of_withPlaceholderName? p).origin

end Prototype

namespace Run
open Merge

def Artifacts.tables (a : Artifacts) : ExportedTables := ⟨a.classes, a.prototypes⟩

/-- The state of the merge behind the artifacts. -/
def settled (h : Hierarchy) (loaded : LoadedObservations) : State :=
  resolveAll h loaded.store (h.nodes.map ClassNode.name)

section Exported
variable (h : Hierarchy) (loaded : LoadedObservations) (encoding : VtableEncoding)
  (fixGetters : Bool) (generatedAt : String)

theorem artifacts_classes : (artifacts h loaded encoding fixGetters generatedAt).classes =
    h.nodes.map fun c => ClassEntry.ofNode encoding (withVtable (settled h loaded) c) := by
  simp only [artifacts, Merge.run, finish, List.map_map, settled]
  rfl

theorem artifacts_prototypes :
    (artifacts h loaded encoding fixGetters generatedAt).prototypes =
      (settled h loaded).table.prototypes.map (Prototype.exported fixGetters) := by
  cases fixGetters with
  | true =>
    simp only [artifacts, Merge.run, finish, settled, if_true,
      PrototypeTable.synthesizePlaceholders, PrototypeTable.fixVoidGetters,
      PrototypeTable.revise, List.map_map]
    rfl
  | false => rfl

theorem artifacts_origins :
    (artifacts h loaded encoding fixGetters generatedAt).prototypes.map Prototype.origin =
      (settled h loaded).table.prototypes.map Prototype.origin := by
  rw [artifacts_prototypes, List.map_map]
  apply List.map_congr_left
  intro p _
  exact p.exported_origin fixGetters

end Exported

section Tables
variable {h : Hierarchy} {s : State} {encoding : VtableEncoding} {t : ExportedTables}

theorem ofNode_withVtable_name (c : ClassNode) :
    (ClassEntry.ofNode encoding (withVtable s c)).name = c.name := withVtable_name s c

theorem ofNode_withVtable_parent (c : ClassNode) :
    (ClassEntry.ofNode encoding (withVtable s c)).parent = c.parent := withVtable_parent s c

/-- An exported class has the vtable that the merge gave it, unless it came with one. -/
theorem ofNode_withVtable_slots {c : ClassNode} (hplain : c.slots = none) :
    (ClassEntry.ofNode encoding (withVtable s c)).slots = s.vtable? c.name := by
  rw [ClassEntry.slots_ofNode, withVtable, State.vtable?]
  cases s.outcome? c.name with
  | none => exact hplain
  | some o =>
    cases o with
    | resolved slots => rfl
    | unobserved => exact hplain
    | failed => exact hplain

section Classes
variable (hclasses : t.classes = h.nodes.map fun c => ClassEntry.ofNode encoding (withVtable s c))
include hclasses

theorem class?_of_classes_eq (name : String) : t.class? name =
    (h.get? name).map fun c => ClassEntry.ofNode encoding (withVtable s c) := by
  rw [ExportedTables.class?, hclasses, List.find?_map, Hierarchy.get?]
  simp only [Function.comp_def, ofNode_withVtable_name]

/-- The exported classes lead upward as the hierarchy does. -/
theorem ascend_of_classes_eq (n : Nat) (name : String) : t.ascend n name =
    ((h.climb n name).bind h.get?).map fun c =>
      ClassEntry.ofNode encoding (withVtable s c) := by
  induction n generalizing name with
  | zero => exact class?_of_classes_eq hclasses name
  | succ n ih =>
    rw [ExportedTables.ascend, class?_of_classes_eq hclasses, Hierarchy.climb,
      Hierarchy.parentName?]
    cases h.get? name with
    | none => rfl
    | some c =>
      simp only [Option.map_some, Option.bind_some, ofNode_withVtable_parent]
      cases c.parent with
      | none => rfl
      | some parent => exact ih parent

end Classes

/-- The prototype of a number that stands at its position. -/
theorem prototype?_of_getElem? {id : ProtoId} {p : Prototype}
    (hp : t.prototypes[id.index]? = some p) (hid : p.id = id) : t.prototype? id = some p := by
  have hkept : t.prototypes[id.index]?.filter (fun q => q.id == id) = some p := by
    rw [hp, Option.filter_some, if_pos (by simp [hid])]
  rw [ExportedTables.prototype?, hkept]

structure NearestResolved (h : Hierarchy) (s : State) (name : String) (n : Nat)
    (owner : String) : Prop where
  met : h.climb n name = some owner
  resolved : s.isResolved owner = true
  nearest : ∀ i < n, ∀ passed, h.climb i name = some passed → s.isResolved passed = false

structure TellsSlot (method : EffectiveMethod) (i : Nat) (slot : VtableSlot) (o : Observation) :
    Prop where
  slotIndex : method.slotIndex = i
  vtableIndex : method.prototype.slotIndex = i
  id : method.prototype.id = slot.id
  mangledName : method.mangledName =
    if o.isImplementedHere && !o.isPureVirtual then some o.mangledName else none

def TellsVtable (s : State) (store : ObservationStore) (v : EffectiveVtable) : Prop :=
  ∃ slots observed, s.outcome? v.sourceClass = some (.resolved slots) ∧
    store.get? v.sourceClass = some observed ∧ v.methods.length = observed.length ∧
    ∀ i method, v.methods[i]? = some method →
      ∃ slot o, slots[i]? = some slot ∧ observed[i]? = some o ∧ TellsSlot method i slot o

section Owner
variable (hplain : ∀ c ∈ h.nodes, c.slots = none) (hinside : Inside h s)
  (hclasses : t.classes = h.nodes.map fun c => ClassEntry.ofNode encoding (withVtable s c))
include hplain hclasses

theorem slots_of_ascend {n : Nat} {name : String} {c : ClassEntry}
    (hc : t.ascend n name = some c) :
    h.climb n name = some c.name ∧ c.slots = s.vtable? c.name := by
  rw [ascend_of_classes_eq hclasses] at hc
  obtain ⟨d, hd, rfl⟩ := Option.map_eq_some_iff.mp hc
  obtain ⟨passed, hclimb, hget⟩ := Option.bind_eq_some_iff.mp hd
  rw [ofNode_withVtable_name, h.name_of_get? hget]
  refine ⟨hclimb, ?_⟩
  rw [ofNode_withVtable_slots (hplain d (h.mem_of_get? hget)), h.name_of_get? hget]

theorem vtable_isSome_of_ascend {n : Nat} {name : String} {c : ClassEntry}
    (hc : t.ascend n name = some c) : c.vtable.isSome = s.isResolved c.name := by
  rw [State.isResolved, ← (slots_of_ascend hplain hclasses hc).2, ClassEntry.slots,
    Option.isSome_map]

theorem nearestResolved_of_owns {n : Nat} {name : String} {owner : ClassEntry}
    (howns : t.Owns name n owner) : NearestResolved h s name n owner.name where
  met := (slots_of_ascend hplain hclasses howns.met).1
  resolved := (vtable_isSome_of_ascend hplain hclasses howns.met).symm.trans howns.filled
  nearest i hi passed hpassed := by
    obtain ⟨c, hc⟩ := ExportedTables.exists_ascend_of_le howns.met (Nat.le_of_lt hi)
    have hname := (slots_of_ascend hplain hclasses hc).1
    obtain rfl : passed = c.name := Option.some.inj (hpassed.symm.trans hname)
    rw [← vtable_isSome_of_ascend hplain hclasses hc, howns.nearest i hi c hc]
    rfl

include hinside

/-- A resolved class above has an owner at it or below. -/
theorem exists_owns_of_isResolved {n : Nat} {name passed : String}
    (hclimb : h.climb n name = some passed) (hresolved : s.isResolved passed = true) :
    ∃ k owner, t.Owns name k owner := by
  classical
  have hfound : ∃ k c, t.ascend k name = some c ∧ c.vtable.isSome = true := by
    obtain ⟨c, hc⟩ := h.contains_iff_exists.mp (contains_of_isResolved hinside hresolved)
    have hascend : t.ascend n name = some (ClassEntry.ofNode encoding (withVtable s c)) := by
      rw [ascend_of_classes_eq hclasses, hclimb, Option.bind_some, hc, Option.map_some]
    refine ⟨n, _, hascend, ?_⟩
    rw [vtable_isSome_of_ascend hplain hclasses hascend, ofNode_withVtable_name,
      h.name_of_get? hc, hresolved]
  obtain ⟨owner, hmet, hfilled⟩ := Nat.find_spec hfound
  refine ⟨Nat.find hfound, owner, hmet, hfilled, fun i hi c hc => ?_⟩
  by_contra hne
  exact Nat.find_min hfound hi ⟨c, hc, Option.isSome_iff_ne_none.mpr hne⟩

end Owner

end Tables

section Shown
variable {h : Hierarchy} {loaded : LoadedObservations} {encoding : VtableEncoding}
  {fixGetters : Bool} {generatedAt : String}

/-- Every slot of the merge has its prototype in the exported document. -/
theorem exists_exported_prototype {store : ObservationStore} {s : State} {t : ExportedTables}
    (hs : Coherent h store s)
    (horigins : t.prototypes.map Prototype.origin = s.table.prototypes.map Prototype.origin)
    {name : String} {slots : List VtableSlot} (hslots : s.vtable? name = some slots) {j : Nat}
    {slot : VtableSlot} (hslot : slots[j]? = some slot) :
    ∃ p, t.prototype? slot.id = some p ∧ p.id = slot.id ∧ p.slotIndex = j := by
  obtain ⟨p, hp, hid, hindex, -⟩ := hs.exists_prototype hslots hslot
  have horigin := congrArg (·[slot.id.index]?) horigins
  simp only [List.getElem?_map] at horigin
  rw [PrototypeTable.get?] at hp
  rw [hp, Option.map_some, Option.map_eq_some_iff] at horigin
  obtain ⟨q, hq, heq⟩ := horigin
  obtain ⟨hqid, hrest⟩ := Prod.mk.inj heq
  obtain ⟨-, hqindex⟩ := Prod.mk.inj hrest
  exact ⟨q, prototype?_of_getElem? hq (hqid.trans hid), hqid.trans hid, hqindex.trans hindex⟩

/-- The effective vtable below an owner. -/
theorem exists_effectiveVtable_of_owns {store : ObservationStore} {s : State}
    {t : ExportedTables} (hs : Coherent h store s) (hplain : ∀ c ∈ h.nodes, c.slots = none)
    (hclasses : t.classes = h.nodes.map fun c => ClassEntry.ofNode encoding (withVtable s c))
    (horigins : t.prototypes.map Prototype.origin = s.table.prototypes.map Prototype.origin)
    {name : String} {n : Nat} {owner : ClassEntry} (howns : t.Owns name n owner) :
    ∃ v, t.effectiveVtable name = .ok v ∧ v.className = name ∧ v.sourceClass = owner.name ∧
      TellsVtable s store v := by
  have hresolved := (nearestResolved_of_owns hplain hclasses howns).resolved
  obtain ⟨slots, hslots⟩ := State.isResolved_iff.mp hresolved
  have howner : owner.slots = some slots :=
    (slots_of_ascend hplain hclasses howns.met).2.trans hslots
  obtain ⟨observed, hobs, hlength, hzip⟩ := hs.observed owner.name slots hslots
  obtain ⟨methods, hmethods, hcount, htold⟩ := @ExportedTables.exists_methodsFrom t owner.name
    slots 0 fun slot hslot => by
      obtain ⟨j, hj⟩ := List.getElem?_of_mem hslot
      obtain ⟨p, hp, -⟩ := exists_exported_prototype hs horigins hslots hj
      exact ⟨p, hp⟩
  refine ⟨⟨name, owner.name, methods⟩, ?_, rfl, rfl, slots, observed,
    State.vtable?_eq_some_iff.mp hslots, hobs, hcount.trans hlength, ?_⟩
  · rw [ExportedTables.effectiveVtable, ExportedTables.vtableOwner_eq_ok_iff.mpr ⟨n, howns⟩]
    simp only [howner, Option.getD_some, hmethods, bind, Except.bind, pure, Except.pure]
  · intro i method hmethod
    obtain ⟨slot, hslot, hindex, hprototype, hmangled⟩ := htold i method hmethod
    obtain ⟨p, hp, hid, hpindex⟩ := exists_exported_prototype hs horigins hslots hslot
    obtain rfl : p = method.prototype := Option.some.inj (hp.symm.trans hprototype)
    have hlt : i < observed.length := hlength ▸ (List.getElem?_eq_some_iff.mp hslot).1
    refine ⟨slot, observed[i], hslot, List.getElem?_eq_getElem hlt, ?_⟩
    have hmade : slot = VtableSlot.ofObservation slot.id observed[i] := by
      have hat := congrArg (·[i]?) hzip
      simp only [List.getElem?_zipWith, List.getElem?_map, hslot,
        List.getElem?_eq_getElem hlt] at hat
      exact Option.some.inj hat
    refine {
      slotIndex := by omega
      vtableIndex := hpindex
      id := hid
      mangledName := ?_ }
    rw [hmangled, hmade]
    rfl

/-- After a merge of classes that came without vtables, looking up a class tells that it is not
in the hierarchy, or that no class from it upward is resolved, or the whole vtable of the nearest
one that is. -/
theorem effectiveVtable_artifacts (hplain : ∀ c ∈ h.nodes, c.slots = none)
    (hbound : (settled h loaded).table.size < 2 ^ 32) (name : String) :
    let s := settled h loaded
    let shown := (artifacts h loaded encoding fixGetters generatedAt).tables.effectiveVtable name
    (shown = .error (.unknownClass name) ↔ h.contains name = false) ∧
      (shown = .error (.noVtable name) ↔ h.contains name = true ∧
        ∀ k passed, h.climb k name = some passed → s.isResolved passed = false) ∧
      (∀ k passed, h.climb k name = some passed → s.isResolved passed = true →
        ∃ n v, shown = .ok v ∧ v.className = name ∧
          NearestResolved h s name n v.sourceClass ∧ TellsVtable s loaded.store v) ∧
      ∀ owner id, shown ≠ .error (.danglingPrototype owner id) := by
  intro s shown
  have hs : Coherent h loaded.store s := coherent_of_leads (leads_resolveAll _) hbound
  have hclasses : (artifacts h loaded encoding fixGetters generatedAt).tables.classes = _ :=
    artifacts_classes h loaded encoding fixGetters generatedAt
  have horigins :
      (artifacts h loaded encoding fixGetters generatedAt).tables.prototypes.map _ = _ :=
    artifacts_origins h loaded encoding fixGetters generatedAt
  have hunknown (hmissing : h.contains name = false) : shown = .error (.unknownClass name) := by
    refine ExportedTables.effectiveVtable_of_class?_eq_none ?_
    have hget : h.get? name = none := by simpa [Hierarchy.contains] using hmissing
    rw [class?_of_classes_eq hclasses, hget, Option.map_none]
  have hempty (hcontains : h.contains name = true)
      (hnone : ∀ k passed, h.climb k name = some passed → s.isResolved passed = false) :
      shown = .error (.noVtable name) := by
    obtain ⟨c, hc⟩ := h.contains_iff_exists.mp hcontains
    refine ExportedTables.effectiveVtable_of_no_owner (fun n owner howns => ?_)
      ((class?_of_classes_eq hclasses name).trans (congrArg _ hc))
    have hnearest := nearestResolved_of_owns hplain hclasses howns
    exact Bool.false_ne_true ((hnone n _ hnearest.met).symm.trans hnearest.resolved)
  have hfound (k : Nat) (passed : String) (hclimb : h.climb k name = some passed)
      (hresolved : s.isResolved passed = true) : ∃ n v, shown = .ok v ∧ v.className = name ∧
        NearestResolved h s name n v.sourceClass ∧ TellsVtable s loaded.store v := by
    obtain ⟨n, owner, howns⟩ :=
      exists_owns_of_isResolved hplain hs.inside hclasses hclimb hresolved
    obtain ⟨v, hv, hclass, hsource, htells⟩ :=
      exists_effectiveVtable_of_owns hs hplain hclasses horigins howns
    refine ⟨n, v, hv, hclass, ?_, htells⟩
    rw [hsource]
    exact nearestResolved_of_owns hplain hclasses howns
  -- The three cases exclude each other and leave nothing out.
  cases hcontains : h.contains name with
  | false =>
    have hshown := hunknown hcontains
    exact ⟨by simp [hshown], by simp [hshown], hfound, by simp [hshown]⟩
  | true =>
    by_cases hnone : ∀ k passed, h.climb k name = some passed → s.isResolved passed = false
    · have hshown := hempty hcontains hnone
      have hno : shown = .error (.noVtable name) ↔ true = true ∧
          ∀ k passed, h.climb k name = some passed → s.isResolved passed = false :=
        iff_of_true hshown ⟨rfl, hnone⟩
      exact ⟨by simp [hshown], hno, hfound, by simp [hshown]⟩
    · have hsome := hnone
      push Not at hsome
      obtain ⟨k, passed, hclimb, hresolved⟩ := hsome
      obtain ⟨-, v, hv, -⟩ := hfound k passed hclimb (by simpa using hresolved)
      have hno : shown = .error (.noVtable name) ↔ true = true ∧
          ∀ k passed, h.climb k name = some passed → s.isResolved passed = false :=
        iff_of_false (by simp [hv]) fun hall => hnone hall.2
      exact ⟨by simp [hv], hno, hfound, by simp [hv]⟩

/-- A class without observations is shown the vtable of its parent. -/
theorem effectiveVtable_artifacts_sample :
    (∀ c ∈ sampleHierarchy.nodes, c.slots = none) ∧
      (settled sampleHierarchy ⟨sampleStore, []⟩).table.size < 2 ^ 32 ∧
      ∃ n v, (artifacts sampleHierarchy ⟨sampleStore, []⟩ .compact true "").tables.effectiveVtable
          "Ghost" = .ok v ∧ v.className = "Ghost" ∧
        NearestResolved sampleHierarchy (settled sampleHierarchy ⟨sampleStore, []⟩) "Ghost" n
          v.sourceClass ∧
        TellsVtable (settled sampleHierarchy ⟨sampleStore, []⟩) sampleStore v := by
  have hplain : ∀ c ∈ sampleHierarchy.nodes, c.slots = none := by decide
  have hbound : (settled sampleHierarchy ⟨sampleStore, []⟩).table.size < 2 ^ 32 := by decide
  obtain ⟨-, -, hfound, -⟩ := @effectiveVtable_artifacts sampleHierarchy ⟨sampleStore, []⟩ .compact
    true "" hplain hbound "Ghost"
  exact ⟨hplain, hbound, hfound 1 "Device" (by decide) (by decide)⟩

end Shown

end Run

end VtableMerge
