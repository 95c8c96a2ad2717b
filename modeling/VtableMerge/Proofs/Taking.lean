import VtableMerge.Proofs.Folds

/-!
What resolving a class does to the prototypes that are there. Each inherited one takes the
observation of its slot, once, and no other one changes. The conflicts found are those about the
single prototypes.
-/
namespace VtableMerge.Merge

variable {h : Hierarchy} {store : ObservationStore} {s t : State} {c : ClassNode}

/-- What resolving a class makes of a prototype that is there, with the conflicts found. -/
def taken (store : ObservationStore) (s : State) (c : ClassNode) (p : Prototype) :
    Prototype × Diagnostics :=
  if p.id ∈ (s.parentVtable c).map VtableSlot.id then enrichBy store p.slotIndex (p, []) c.name
  else (p, [])

section Laying
variable {observed : List Observation}

theorem nodup_parentVtable (hs : Coherent h store s) (c : ClassNode) :
    (((s.parentVtable c).map VtableSlot.id).map ProtoId.index).Nodup := by
  rw [List.map_map]
  exact (ascending_parentVtable hs c).imp fun hlt => Nat.ne_of_lt hlt

/-- An inherited number stands at the slot of its prototype. -/
theorem exists_prototype_of_inherited (hs : Coherent h store s) {j : Nat} {id : ProtoId}
    (hid : ((s.parentVtable c).map VtableSlot.id)[j]? = some id) :
    ∃ p, s.table.get? id = some p ∧ p.id = id ∧ p.slotIndex = j := by
  rw [List.getElem?_map, Option.map_eq_some_iff] at hid
  obtain ⟨slot, hslot, rfl⟩ := hid
  rcases parentVtable_eq_nil_or s c with hnil | ⟨parent, -, hslots⟩
  · simp [hnil] at hslot
  · obtain ⟨p, hp, hid, hindex, -⟩ := hs.exists_prototype hslots hslot
    exact ⟨p, hp, hid, hindex⟩

/-- The slot of an inherited prototype. -/
theorem getElem?_of_inherited (hs : Coherent h store s) {k : Nat} {p : Prototype}
    (hp : s.table.prototypes[k]? = some p)
    (hmem : p.id ∈ (s.parentVtable c).map VtableSlot.id) :
    ((s.parentVtable c).map VtableSlot.id)[p.slotIndex]? = some p.id := by
  obtain ⟨j, hj⟩ := List.getElem?_of_mem hmem
  obtain ⟨q, hq, -, hindex⟩ := exists_prototype_of_inherited hs hj
  rw [PrototypeTable.get?, hs.id_index_eq hp, hp, Option.some.injEq] at hq
  subst hq
  rwa [hindex]

theorem exists_observation_of_inherited
    (hlength : (s.parentVtable c).length ≤ observed.length) {j : Nat} {id : ProtoId}
    (hid : ((s.parentVtable c).map VtableSlot.id)[j]? = some id) :
    ∃ o, observed[j]? = some o := by
  have hlt := (List.getElem?_eq_some_iff.mp hid).1
  rw [List.length_map] at hlt
  exact ⟨_, List.getElem?_eq_getElem (Nat.lt_of_lt_of_le hlt hlength)⟩

theorem taken_of_inherited (hobs : store.get? c.name = some observed) {p : Prototype}
    {o : Observation} (hmem : p.id ∈ (s.parentVtable c).map VtableSlot.id)
    (ho : observed[p.slotIndex]? = some o) :
    taken store s c p = ((p.enrich o c.name p.slotIndex).prototype,
      (p.enrich o c.name p.slotIndex).conflicts) := by
  simp only [taken, if_pos hmem, enrichBy, ObservationStore.slot?, hobs, Option.bind_some, ho,
    List.nil_append]

/-- Resolving a class changes the prototypes that are there as it takes them. -/
theorem layFrom_getElem?_of_lt (hs : Coherent h store s)
    (hobs : store.get? c.name = some observed)
    (hlength : (s.parentVtable c).length ≤ observed.length) {k : Nat} {p : Prototype}
    (hp : s.table.prototypes[k]? = some p) :
    (layFrom c.name 0 s.table ((s.parentVtable c).map VtableSlot.id)
      observed).table.prototypes[k]? = some (taken store s c p).1 := by
  have hk : k < s.table.size := (List.getElem?_eq_some_iff.mp hp).1
  have hindex := hs.id_index_eq hp
  by_cases hmem : p.id ∈ (s.parentVtable c).map VtableSlot.id
  · have hid := getElem?_of_inherited hs hp hmem
    obtain ⟨o, ho⟩ := exists_observation_of_inherited hlength hid
    have hlaid := layFrom_getElem?_of_inherited c.name (nodup_parentVtable hs c) 0 s.table hid ho
      (by rwa [hindex])
    rw [hindex, hp, Nat.zero_add] at hlaid
    rw [hlaid, taken_of_inherited hobs hmem ho]
    rfl
  · rw [layFrom_getElem?_of_not_inherited c.name _ 0 s.table hk, hp, taken, if_neg hmem]
    intro id hid heq
    rw [← hindex] at heq
    rw [ProtoId.index_injective heq] at hid
    exact hmem hid

def takenConflicts (store : ObservationStore) (s : State) (c : ClassNode) (id : ProtoId) :
    Diagnostics :=
  ((s.table.get? id).map fun p => (taken store s c p).2).getD []

theorem layFrom_conflicts_eq (hs : Coherent h store s)
    (hobs : store.get? c.name = some observed)
    (hlength : (s.parentVtable c).length ≤ observed.length) :
    (layFrom c.name 0 s.table ((s.parentVtable c).map VtableSlot.id) observed).conflicts =
      ((s.parentVtable c).map VtableSlot.id).flatMap (takenConflicts store s c) := by
  rw [layFrom_conflicts c.name (nodup_parentVtable hs c), List.flatMap_def, List.flatMap_def]
  congr 1
  apply List.ext_getElem
  · simpa using hlength
  · intro j hj hj'
    rw [List.length_map] at hj'
    simp only [List.getElem_map, List.getElem_zipIdx, List.getElem_zip, Nat.zero_add]
    have hid := List.getElem?_eq_getElem hj'
    obtain ⟨p, hp, hpid, hindex⟩ := exists_prototype_of_inherited hs hid
    obtain ⟨o, ho⟩ := exists_observation_of_inherited hlength hid
    have hmem : p.id ∈ (s.parentVtable c).map VtableSlot.id :=
      hpid ▸ List.mem_of_getElem? hid
    have hget := (List.getElem?_eq_some_iff.mp ho).2
    rw [List.getElem_map] at hp
    rw [enrichInherited_conflicts, takenConflicts, hp, hget]
    simp only [Option.map_some, Option.getD_some,
      taken_of_inherited hobs hmem (hindex ▸ ho), hindex]

/-- The inherited numbers are those of the prototypes among them. -/
theorem perm_inherited_ids (hs : Coherent h store s) (c : ClassNode) :
    ((s.parentVtable c).map VtableSlot.id).Perm ((s.table.prototypes.filter fun p =>
      decide (p.id ∈ (s.parentVtable c).map VtableSlot.id)).map fun p => p.id) := by
  refine (List.perm_ext_iff_of_nodup (nodup_parentVtable hs c).of_map ?_).mpr fun id => ?_
  · exact hs.nodup_ids.sublist (List.filter_sublist.map _)
  · constructor
    · intro hid
      obtain ⟨j, hj⟩ := List.getElem?_of_mem hid
      obtain ⟨p, hp, hpid, -⟩ := exists_prototype_of_inherited hs hj
      refine List.mem_map.mpr ⟨p, List.mem_filter.mpr ⟨List.mem_of_getElem? hp, ?_⟩, hpid⟩
      rwa [hpid, decide_eq_true_eq]
    · intro hmem
      obtain ⟨p, hp, rfl⟩ := List.mem_map.mp hmem
      exact of_decide_eq_true (List.mem_filter.mp hp).2

/-- Elements without a part may be left out. -/
theorem flatMap_filter_of_nil {α β : Type} {q : α → Bool} {f : α → List β} {l : List α}
    (hnil : ∀ a ∈ l, q a = false → f a = []) : (l.filter q).flatMap f = l.flatMap f := by
  induction l with
  | nil => rfl
  | cons a l ih =>
    have hrest := ih fun b hb => hnil b (List.mem_cons_of_mem _ hb)
    rw [List.filter_cons, List.flatMap_cons, ← hrest]
    cases hq : q a with
    | true => rw [if_pos rfl, List.flatMap_cons]
    | false =>
      rw [if_neg (by decide), hnil a List.mem_cons_self hq, List.nil_append]

/-- Each conflict of resolving a class is a conflict about one prototype. -/
theorem perm_layFrom_conflicts (hs : Coherent h store s)
    (hobs : store.get? c.name = some observed)
    (hlength : (s.parentVtable c).length ≤ observed.length) :
    (layFrom c.name 0 s.table ((s.parentVtable c).map VtableSlot.id) observed).conflicts.Perm
      (s.table.prototypes.flatMap fun p => (taken store s c p).2) := by
  have hown : ∀ p ∈ s.table.prototypes,
      takenConflicts store s c p.id = (taken store s c p).2 := by
    intro p hp
    obtain ⟨k, hk⟩ := List.getElem?_of_mem hp
    rw [takenConflicts, PrototypeTable.get?, hs.id_index_eq hk, hk]
    rfl
  rw [layFrom_conflicts_eq hs hobs hlength]
  refine ((perm_inherited_ids hs c).flatMap_right _).trans (List.Perm.of_eq ?_)
  rw [List.flatMap_map, List.flatMap_congr fun p hp => hown p (List.mem_filter.mp hp).1]
  refine flatMap_filter_of_nil fun p _ hnot => ?_
  rw [taken, if_neg (of_decide_eq_false hnot)]

/-- The table after a class was resolved: what the class made of the old prototypes, and then the
prototypes of the slots that it declares. -/
theorem layFrom_prototypes (hs : Coherent h store s) (hobs : store.get? c.name = some observed)
    (hlength : (s.parentVtable c).length ≤ observed.length) :
    ∃ fresh, (layFrom c.name 0 s.table ((s.parentVtable c).map VtableSlot.id)
        observed).table.prototypes =
          s.table.prototypes.map (fun p => (taken store s c p).1) ++ fresh ∧
      ∀ p ∈ fresh, ∃ id slotIndex o, observed[slotIndex]? = some o ∧
        p = Prototype.declared id c.name slotIndex o := by
  let ids := (s.parentVtable c).map VtableSlot.id
  let laid := (layFrom c.name 0 s.table ids observed).table
  have hids : ids.length ≤ observed.length := by rwa [List.length_map]
  have hsize : laid.size = s.table.size + (observed.length - ids.length) :=
    layFrom_size c.name hids 0 s.table
  have hold : laid.prototypes.take s.table.size =
      s.table.prototypes.map fun p => (taken store s c p).1 := by
    apply List.ext_getElem?
    intro k
    rw [List.getElem?_map]
    cases hk : s.table.prototypes[k]? with
    | none =>
      have hle : s.table.size ≤ k := List.getElem?_eq_none_iff.mp hk
      rw [List.getElem?_take_eq_none hle, Option.map_none]
    | some p =>
      have hlt : k < s.table.size := (List.getElem?_eq_some_iff.mp hk).1
      rw [List.getElem?_take_of_lt hlt, Option.map_some]
      exact layFrom_getElem?_of_lt hs hobs hlength hk
  refine ⟨laid.prototypes.drop s.table.size, ?_, fun p hp => ?_⟩
  · rw [← hold]
    exact (List.take_append_drop _ _).symm
  · obtain ⟨j, hj⟩ := List.getElem?_of_mem hp
    rw [List.getElem?_drop] at hj
    have hlt : s.table.size + j < laid.size := (List.getElem?_eq_some_iff.mp hj).1
    obtain ⟨o, ho⟩ : ∃ o, observed[ids.length + j]? = some o :=
      ⟨_, List.getElem?_eq_getElem (by omega)⟩
    have hlaid := layFrom_getElem?_declared c.name 0 s.table ho
    rw [Nat.zero_add] at hlaid
    exact ⟨_, _, _, ho, Option.some.inj (hj.symm.trans hlaid)⟩

end Laying

end VtableMerge.Merge
