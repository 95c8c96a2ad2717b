import Mathlib.Algebra.Ring.Nat
import Mathlib.Data.List.Perm.Basic
import VtableMerge.Merge.State

/-!
What laying the slots of a class does to the table of prototypes. The origin of a prototype (its
number, the declaring class and the slot there) never changes. Inherited prototypes are enriched,
each by the observation of its own slot; all others stay as they were, and the slots past the
inherited ones get new prototypes behind the old ones.
-/
namespace VtableMerge

namespace Prototype

/-- What enrichment leaves alone. -/
def origin (p : Prototype) : ProtoId × String × Nat := (p.id, p.declaringClass, p.slotIndex)

def declared (id : ProtoId) (className : String) (slotIndex : Nat) (o : Observation) :
    Prototype :=
  { o.signature with id, slotIndex, declaringClass := className }

theorem enrich_origin (p : Prototype) (o : Observation) (className : String) (slotIndex : Nat) :
    (p.enrich o className slotIndex).prototype.origin = p.origin := by
  unfold enrich
  split <;> rfl

/-- An enrichment finds at most a mismatch of names and then one of parameter counts. -/
theorem enrich_conflicts_sublist (p : Prototype) (o : Observation) (className : String)
    (slotIndex : Nat) : ∃ q : Prototype, (p.enrich o className slotIndex).conflicts.Sublist
      [p.nameMismatch className slotIndex o.name,
        q.parameterCountMismatch className slotIndex o.parameters] := by
  have hpart {α : Type} (b : Bool) (a : α) : (if b then some a else none).toList.Sublist [a] := by
    cases b
    · exact List.nil_sublist [a]
    · exact List.Sublist.refl [a]
  refine ⟨{ p with name := (adoptNames p.toSignature o.toSignature).1.name }, ?_⟩
  cases hbody : o.isPureVirtual with
  | true =>
    rw [p.enrich_of_pureVirtual className slotIndex hbody]
    exact List.nil_sublist _
  | false =>
    rw [p.enrich_of_body className slotIndex hbody]
    exact (hpart _ _).append (hpart _ _)

/-- A conflict names the class and the slot whose observation was folded in. -/
theorem of_mem_enrich_conflicts {p : Prototype} {o : Observation} {className : String}
    {slotIndex : Nat} {d : Diagnostic} (hd : d ∈ (p.enrich o className slotIndex).conflicts) :
    d.className = className ∧ d.slotIndex = some slotIndex ∧ d.kind.category = .conflict := by
  obtain ⟨q, hsub⟩ := p.enrich_conflicts_sublist o className slotIndex
  rcases List.mem_pair.mp (hsub.subset hd) with rfl | rfl <;> exact ⟨rfl, rfl, rfl⟩

end Prototype

theorem ProtoId.index_ofIndex {i : Nat} (hi : i < 2 ^ 32) : (ProtoId.ofIndex i).index = i := by
  simp only [ofIndex, index, UInt32.toNat_ofNat']
  exact Nat.mod_eq_of_lt hi

theorem ProtoId.index_injective {a b : ProtoId} (hab : a.index = b.index) : a = b := by
  cases a
  cases b
  exact congrArg ProtoId.mk (UInt32.toNat_inj.mp hab)

namespace Merge

section Inherited
variable (className : String) (slotIndex : Nat) (id : ProtoId) (o : Observation)
  (table : PrototypeTable)

theorem enrichInherited_getElem? (k : Nat) :
    (enrichInherited className slotIndex id o table).1.prototypes[k]? =
      if k = id.index then
        table.prototypes[k]?.map fun p => (p.enrich o className slotIndex).prototype
      else table.prototypes[k]? := by
  unfold enrichInherited PrototypeTable.get?
  split
  · next hnone =>
    split
    · next hk => simp [hk, hnone]
    · rfl
  · next p hp =>
    have hlt : id.index < table.prototypes.length := (List.getElem?_eq_some_iff.mp hp).1
    simp only [PrototypeTable.set]
    split
    · next hk =>
      rw [hk, List.getElem?_set_self hlt, hp]
      rfl
    · next hk => exact List.getElem?_set_ne (Ne.symm hk)

theorem enrichInherited_size :
    (enrichInherited className slotIndex id o table).1.size = table.size := by
  unfold enrichInherited
  split
  · rfl
  · simp [PrototypeTable.set, PrototypeTable.size]

theorem enrichInherited_origins :
    (enrichInherited className slotIndex id o table).1.prototypes.map Prototype.origin =
      table.prototypes.map Prototype.origin := by
  apply List.ext_getElem?
  intro k
  simp only [List.getElem?_map, enrichInherited_getElem?]
  split
  · simp only [Option.map_map]
    congr 1
    funext p
    exact p.enrich_origin o className slotIndex
  · rfl

theorem enrichInherited_conflicts :
    (enrichInherited className slotIndex id o table).2 =
      ((table.get? id).map fun p => (p.enrich o className slotIndex).conflicts).getD [] := by
  unfold enrichInherited
  split
  · next hnone => rw [hnone]; rfl
  · next p hp => rw [hp]; rfl

end Inherited

def nextIds (table : PrototypeTable) (count : Nat) : List ProtoId :=
  (List.range count).map fun j => ProtoId.ofIndex (table.size + j)

def nextOrigins (className : String) (slotIndex : Nat) (table : PrototypeTable) (count : Nat) :
    List (ProtoId × String × Nat) :=
  (List.range count).map fun j =>
    (ProtoId.ofIndex (table.size + j), className, slotIndex + j)

theorem nextIds_create (table : PrototypeTable) (className : String) (slotIndex : Nat)
    (signature : Signature) (count : Nat) :
    nextIds table (count + 1) = ProtoId.ofIndex table.size ::
      nextIds (table.create className slotIndex signature).1 count := by
  simp only [nextIds, List.range_succ_eq_map, List.map_cons, List.map_map, Nat.add_zero]
  congr 2
  funext j
  simp only [Function.comp_apply, PrototypeTable.create, PrototypeTable.size,
    List.length_append, List.length_cons, List.length_nil]
  congr 1
  omega

theorem nextOrigins_create (table : PrototypeTable) (className : String) (slotIndex : Nat)
    (signature : Signature) (count : Nat) :
    nextOrigins className slotIndex table (count + 1) =
      (ProtoId.ofIndex table.size, className, slotIndex) ::
        nextOrigins className (slotIndex + 1)
          (table.create className slotIndex signature).1 count := by
  simp only [nextOrigins, List.range_succ_eq_map, List.map_cons, List.map_map, Nat.add_zero]
  congr 2
  funext j
  simp only [Function.comp_apply, PrototypeTable.create, PrototypeTable.size,
    List.length_append, List.length_cons, List.length_nil, Prod.mk.injEq, true_and]
  constructor
  · congr 1
    omega
  · omega

section Laying
variable (className : String)

/-- The slots carry the inherited numbers and then the next free ones. -/
theorem layFrom_slots {ids : List ProtoId} {observed : List Observation}
    (hlength : ids.length ≤ observed.length) (slotIndex : Nat) (table : PrototypeTable) :
    (layFrom className slotIndex table ids observed).slots =
      List.zipWith VtableSlot.ofObservation
        (ids ++ nextIds table (observed.length - ids.length)) observed := by
  induction observed generalizing slotIndex table ids with
  | nil => simp [layFrom]
  | cons o os ih =>
    cases ids with
    | nil =>
      simp only [layFrom, List.nil_append, List.length_cons, List.length_nil, Nat.sub_zero]
      rw [nextIds_create table className slotIndex o.signature, List.zipWith_cons_cons,
        ih (Nat.zero_le _)]
      simp [PrototypeTable.create]
    | cons id ids =>
      simp only [List.length_cons, Nat.add_le_add_iff_right] at hlength
      simp only [layFrom, List.cons_append, List.zipWith_cons_cons, List.length_cons,
        Nat.add_sub_add_right]
      rw [ih hlength]
      simp only [nextIds, enrichInherited_size]

theorem layFrom_origins {ids : List ProtoId} {observed : List Observation}
    (hlength : ids.length ≤ observed.length) (slotIndex : Nat) (table : PrototypeTable) :
    (layFrom className slotIndex table ids observed).table.prototypes.map Prototype.origin =
      table.prototypes.map Prototype.origin ++
        nextOrigins className (slotIndex + ids.length) table (observed.length - ids.length) := by
  induction observed generalizing slotIndex table ids with
  | nil => simp [layFrom, nextOrigins]
  | cons o os ih =>
    cases ids with
    | nil =>
      simp only [layFrom, List.length_cons, List.length_nil, Nat.sub_zero, Nat.add_zero]
      rw [ih (Nat.zero_le _), nextOrigins_create table className slotIndex o.signature]
      simp [PrototypeTable.create, Prototype.origin]
    | cons id ids =>
      simp only [List.length_cons, Nat.add_le_add_iff_right] at hlength
      simp only [layFrom, List.length_cons, Nat.add_sub_add_right]
      rw [ih hlength, enrichInherited_origins]
      simp only [nextOrigins, enrichInherited_size, Nat.add_assoc, Nat.add_comm 1]

theorem layFrom_size {ids : List ProtoId} {observed : List Observation}
    (hlength : ids.length ≤ observed.length) (slotIndex : Nat) (table : PrototypeTable) :
    (layFrom className slotIndex table ids observed).table.size =
      table.size + (observed.length - ids.length) := by
  have horigins := congrArg List.length (layFrom_origins className hlength slotIndex table)
  simpa [nextOrigins, PrototypeTable.size] using horigins

/-- A prototype that is not inherited stays as it was. -/
theorem layFrom_getElem?_of_not_inherited {ids : List ProtoId} {observed : List Observation}
    {k : Nat} (hids : ∀ id ∈ ids, id.index ≠ k) (slotIndex : Nat) (table : PrototypeTable)
    (hk : k < table.size) :
    (layFrom className slotIndex table ids observed).table.prototypes[k]? =
      table.prototypes[k]? := by
  induction observed generalizing slotIndex table ids with
  | nil => simp [layFrom]
  | cons o os ih =>
    cases ids with
    | nil =>
      simp only [layFrom]
      rw [ih (by simp) (slotIndex + 1) _ (by
        simp only [PrototypeTable.size, PrototypeTable.create, List.length_append] at hk ⊢
        omega)]
      exact List.getElem?_append_left hk
    | cons id ids =>
      simp only [layFrom]
      have hne : k ≠ id.index := Ne.symm (hids id List.mem_cons_self)
      rw [ih (fun other hother => hids other (List.mem_cons_of_mem _ hother)) (slotIndex + 1) _
        (by rwa [enrichInherited_size]), enrichInherited_getElem?, if_neg hne]

/-- An inherited prototype is enriched by the observation of its slot. -/
theorem layFrom_getElem?_of_inherited {ids : List ProtoId} {observed : List Observation}
    (hdistinct : (ids.map ProtoId.index).Nodup) (slotIndex : Nat) (table : PrototypeTable)
    {j : Nat} {id : ProtoId} {o : Observation} (hid : ids[j]? = some id)
    (ho : observed[j]? = some o) (hlt : id.index < table.size) :
    (layFrom className slotIndex table ids observed).table.prototypes[id.index]? =
      table.prototypes[id.index]?.map fun p =>
        (p.enrich o className (slotIndex + j)).prototype := by
  induction observed generalizing slotIndex table ids j with
  | nil => simp at ho
  | cons first os ih =>
    cases ids with
    | nil => simp at hid
    | cons front ids =>
      simp only [List.map_cons, List.nodup_cons] at hdistinct
      simp only [layFrom]
      cases j with
      | zero =>
        obtain rfl : front = id := by simpa using hid
        obtain rfl : first = o := by simpa using ho
        rw [layFrom_getElem?_of_not_inherited className _ _ _ (by rwa [enrichInherited_size]),
          enrichInherited_getElem?, if_pos rfl, Nat.add_zero]
        intro other hother heq
        exact hdistinct.1 (List.mem_map.mpr ⟨other, hother, heq⟩)
      | succ j =>
        simp only [List.getElem?_cons_succ] at hid ho
        have hne : id.index ≠ front.index := fun heq =>
          hdistinct.1 (List.mem_map.mpr ⟨id, List.mem_of_getElem? hid, heq⟩)
        rw [ih hdistinct.2 (slotIndex + 1) _ hid ho (by rwa [enrichInherited_size]),
          enrichInherited_getElem?, if_neg hne]
        simp only [Nat.add_assoc, Nat.add_comm 1]

/-- A slot past the inherited ones gets a prototype with what is observed there. -/
theorem layFrom_getElem?_declared {ids : List ProtoId} {observed : List Observation}
    (slotIndex : Nat) (table : PrototypeTable) {j : Nat} {o : Observation}
    (ho : observed[ids.length + j]? = some o) :
    (layFrom className slotIndex table ids observed).table.prototypes[table.size + j]? =
      some (Prototype.declared (ProtoId.ofIndex (table.size + j)) className
        (slotIndex + ids.length + j) o) := by
  induction observed generalizing slotIndex table ids j with
  | nil => simp at ho
  | cons first os ih =>
    cases ids with
    | nil =>
      simp only [layFrom, List.length_nil, Nat.zero_add, Nat.add_zero] at ho ⊢
      have hsize : (table.create className slotIndex first.signature).1.size =
          table.size + 1 := by simp [PrototypeTable.create, PrototypeTable.size]
      cases j with
      | zero =>
        obtain rfl : first = o := by simpa using ho
        rw [layFrom_getElem?_of_not_inherited className (by simp) _ _ (by omega)]
        simp [PrototypeTable.create, PrototypeTable.size, Prototype.declared]
      | succ j =>
        have ho : os[([] : List ProtoId).length + j]? = some o := by simpa using ho
        have hrest := ih (slotIndex + 1) (table.create className slotIndex first.signature).1 ho
        simpa only [hsize, List.length_nil, Nat.add_zero, Nat.add_assoc, Nat.add_comm 1]
          using hrest
    | cons id ids =>
      simp only [layFrom]
      have ho : os[ids.length + j]? = some o := by
        have hindex : (id :: ids).length + j = ids.length + j + 1 := by
          simp only [List.length_cons]
          omega
        rwa [hindex, List.getElem?_cons_succ] at ho
      have hrest := ih (slotIndex + 1) (enrichInherited className slotIndex id first table).1 ho
      have hindex : slotIndex + 1 + ids.length + j = slotIndex + (ids.length + 1) + j := by omega
      simpa only [enrichInherited_size, hindex, List.length_cons] using hrest

theorem enrichInherited_conflicts_of_ne (slotIndex other : Nat) {id front : ProtoId}
    (o first : Observation) (table : PrototypeTable) (hne : id.index ≠ front.index) :
    (enrichInherited className slotIndex id o
      (enrichInherited className other front first table).1).2 =
        (enrichInherited className slotIndex id o table).2 := by
  simp only [enrichInherited_conflicts, PrototypeTable.get?]
  rw [enrichInherited_getElem?, if_neg hne]

/-- The conflicts are those of the inherited prototypes as they were before, slot by slot. -/
theorem layFrom_conflicts {ids : List ProtoId} {observed : List Observation}
    (hdistinct : (ids.map ProtoId.index).Nodup) (slotIndex : Nat) (table : PrototypeTable) :
    (layFrom className slotIndex table ids observed).conflicts =
      ((ids.zip observed).zipIdx slotIndex).flatMap fun e =>
        (enrichInherited className e.2 e.1.1 e.1.2 table).2 := by
  induction observed generalizing slotIndex table ids with
  | nil => simp [layFrom]
  | cons first os ih =>
    cases ids with
    | nil =>
      simp only [layFrom]
      rw [ih (by simp)]
      simp
    | cons front ids =>
      simp only [List.map_cons, List.nodup_cons] at hdistinct
      simp only [layFrom, List.zip_cons_cons, List.zipIdx_cons, List.flatMap_cons]
      rw [ih hdistinct.2]
      congr 1
      apply List.flatMap_congr
      intro e he
      apply enrichInherited_conflicts_of_ne
      intro heq
      have hmem : e.1.1 ∈ ids := (List.of_mem_zip (List.fst_mem_of_mem_zipIdx he)).1
      exact hdistinct.1 (List.mem_map.mpr ⟨e.1.1, hmem, heq⟩)

theorem of_mem_enrichInherited {slotIndex : Nat} {id : ProtoId} {o : Observation}
    {table : PrototypeTable} {d : Diagnostic}
    (hd : d ∈ (enrichInherited className slotIndex id o table).2) :
    d.className = className ∧ d.kind.category = .conflict := by
  rw [enrichInherited_conflicts] at hd
  cases hp : table.get? id with
  | none => simp [hp] at hd
  | some p =>
    rw [hp] at hd
    have hfacts := Prototype.of_mem_enrich_conflicts hd
    exact ⟨hfacts.1, hfacts.2.2⟩

theorem of_mem_layFrom_conflicts {ids : List ProtoId} {observed : List Observation}
    {slotIndex : Nat} {table : PrototypeTable} {d : Diagnostic}
    (hd : d ∈ (layFrom className slotIndex table ids observed).conflicts) :
    d.className = className ∧ d.kind.category = .conflict := by
  induction observed generalizing slotIndex table ids with
  | nil => simp [layFrom] at hd
  | cons o os ih =>
    cases ids with
    | nil => exact ih hd
    | cons id ids =>
      simp only [layFrom, List.mem_append] at hd
      rcases hd with hd | hd
      · exact of_mem_enrichInherited className hd
      · exact ih hd

end Laying

end Merge

end VtableMerge
