import VtableMerge.Proofs.Steps

/-!
Every step of a merge keeps the table and the vtables coherent, as long as there are numbers for
all prototypes, so every state of a merge is coherent.
-/
namespace VtableMerge.Merge

variable {h : Hierarchy} {store : ObservationStore} {s t : State} {c : ClassNode}

theorem coherent_of_unlaid (hs : Coherent h store s) (ht : Unlaid s c t) (hinside : Inside h t) :
    Coherent h store t := by
  refine {
    inside := hinside
    supported := ?_
    acyclic := ?_
    observed := ?_
    inherited := ?_
    numbered := ?_
    ascending := ?_
    backed := ?_
    anchored := ?_ }
  · intro name parent hname hparent hcontains
    rw [ht.isResolved_eq] at hname
    have hsettled := hs.supported name parent hname hparent hcontains
    obtain ⟨o, ho⟩ := ht.outcomes
    rw [State.outcome?_of_cons ho]
    split
    · rfl
    · exact hsettled
  · intro name hname
    rw [ht.isResolved_eq] at hname
    exact hs.acyclic name hname
  · intro name slots hslots
    rw [ht.vtable?_eq] at hslots
    exact hs.observed name slots hslots
  · intro name parent slots above hslots hparent habove
    rw [ht.vtable?_eq] at hslots habove
    exact hs.inherited name parent slots above hslots hparent habove
  · rw [ht.table_eq]
    exact hs.numbered
  · intro name slots hslots
    rw [ht.vtable?_eq] at hslots
    exact hs.ascending name slots hslots
  · intro name slots j slot hslots hslot
    rw [ht.vtable?_eq] at hslots
    rw [ht.table_eq]
    obtain ⟨declaring, horigin, hlineal⟩ := hs.backed name slots j slot hslots hslot
    exact ⟨declaring, horigin, hlineal.mono fun other hother => by rwa [ht.isResolved_eq]⟩
  · intro k id declaring slotIndex horigin
    rw [ht.table_eq] at horigin
    obtain ⟨slots, slot, hslots, hslot, hid⟩ := hs.anchored k id declaring slotIndex horigin
    exact ⟨slots, slot, by rwa [ht.vtable?_eq], hslot, hid⟩

theorem ascending_of_laid {observed : List Observation} {slots : List VtableSlot}
    (hs : Coherent h store s) (ht : Laid s c observed slots t) (hbound : t.table.size < 2 ^ 32) :
    (slots.map fun slot => slot.id.index).Pairwise (· < ·) := by
  rw [ht.size_eq] at hbound
  have hmap : (slots.map fun slot => slot.id.index) = ((s.parentVtable c).map fun slot =>
      slot.id.index) ++ (List.range (observed.length - (s.parentVtable c).length)).map
        (s.table.size + ·) := by
    have hindex := congrArg (List.map ProtoId.index) ht.ids_eq
    simp only [List.map_append, List.map_map, nextIds] at hindex
    refine hindex.trans (congrArg _ (List.map_congr_left ?_))
    intro j hj
    rw [List.mem_range] at hj
    exact ProtoId.index_ofIndex (by omega)
  rw [hmap, List.pairwise_append]
  refine ⟨ascending_parentVtable hs c, ?_, ?_⟩
  · rw [List.pairwise_map]
    exact List.pairwise_lt_range.imp fun hlt => Nat.add_lt_add_left hlt _
  · intro a ha b hb
    obtain ⟨slot, hslot, rfl⟩ := List.mem_map.mp ha
    obtain ⟨j, -, rfl⟩ := List.mem_map.mp hb
    have hlt := index_lt_of_mem_parentVtable hs hslot
    omega

section Laying
variable {observed : List Observation} {slots : List VtableSlot}

theorem supported_of_laid (hs : Coherent h store s) (hc : Ready h store s c)
    (ht : Laid s c observed slots t) (hobs : store.get? c.name = some observed)
    (hcyclic : h.isCyclic c.name = false) {name parent : String}
    (hname : t.isResolved name = true) (hlink : h.parentName? name = some parent)
    (hcontains : h.contains parent = true) : (t.outcome? parent).isSome = true := by
  rw [State.outcome?_of_cons ht.outcomes]
  split
  · rfl
  · by_cases hself : name = c.name
    · subst hself
      have hneeds : needsParent h store c.name = true := by
        simp [needsParent, ObservationStore.contains, hobs, hcyclic]
      exact hc.supported hneeds parent (hc.parentName?_eq ▸ hlink) hcontains
    · exact hs.supported name parent (ht.isResolved_of_ne hself hname) hlink hcontains

/-- The new vtable starts with the parent's, and no vtable that is there gets a parent now. -/
theorem inherited_of_laid (hs : Coherent h store s) (hc : Ready h store s c)
    (ht : Laid s c observed slots t) (hcyclic : h.isCyclic c.name = false)
    {name parent : String} {found above : List VtableSlot} (hfound : t.vtable? name = some found)
    (hlink : h.parentName? name = some parent) (habove : t.vtable? parent = some above) :
    above.map VtableSlot.id <+: found.map VtableSlot.id := by
  rcases ht.vtable?_cases hfound with ⟨rfl, rfl⟩ | ⟨-, hfound⟩
  · rw [ht.vtable?_of_ne (ne_of_parentName? hcyclic hlink)] at habove
    rw [ht.ids_eq, hc.parentVtable_eq hlink habove]
    exact List.prefix_append _ _
  · have hne : parent ≠ c.name := by
      rintro rfl
      exact parentName?_ne_of_ready hs hc (State.isResolved_iff.mpr ⟨found, hfound⟩) hlink
    rw [ht.vtable?_of_ne hne] at habove
    exact hs.inherited name parent found above hfound hlink habove

theorem index_ofIndex_of_laid (ht : Laid s c observed slots t) (hbound : t.table.size < 2 ^ 32)
    {j : Nat} (hj : j < observed.length - (s.parentVtable c).length) :
    (ProtoId.ofIndex (s.table.size + j)).index = s.table.size + j := by
  rw [ht.size_eq] at hbound
  exact ProtoId.index_ofIndex (by omega)

theorem backed_of_laid (hs : Coherent h store s) (hc : Ready h store s c)
    (ht : Laid s c observed slots t) (hbound : t.table.size < 2 ^ 32) {name : String}
    {found : List VtableSlot} {j : Nat} {slot : VtableSlot}
    (hfound : t.vtable? name = some found) (hslot : found[j]? = some slot) :
    ∃ declaring, t.table.originAt? slot.id.index = some (slot.id, declaring, j) ∧
      Lineal h t name declaring := by
  have hmono : ∀ other, s.isResolved other = true → t.isResolved other = true :=
    fun _ => ht.isResolved_mono
  rcases ht.vtable?_cases hfound with ⟨rfl, rfl⟩ | ⟨-, hfound⟩
  · rcases ht.slot_cases hslot with ⟨above, habove, hid⟩ | ⟨i, hi, rfl, hid⟩
    · obtain ⟨parent, declaring, hparent, horigin, hlineal⟩ := backed_parentVtable hs habove
      rw [hid, ht.originAt?_old _ (PrototypeTable.originAt?_lt_size horigin)]
      exact ⟨declaring, horigin, Lineal.up ht.isResolved_self (hc.parentName?_eq.trans hparent)
        (hlineal.mono hmono)⟩
    · rw [hid, index_ofIndex_of_laid ht hbound hi]
      exact ⟨c.name, ht.originAt?_new i hi, Lineal.self ht.isResolved_self⟩
  · obtain ⟨declaring, horigin, hlineal⟩ := hs.backed name found j slot hfound hslot
    rw [ht.originAt?_old _ (PrototypeTable.originAt?_lt_size horigin)]
    exact ⟨declaring, horigin, hlineal.mono hmono⟩

/-- Every new prototype has its slot in the new vtable. -/
theorem anchored_of_laid (hs : Coherent h store s) (hc : Ready h store s c)
    (ht : Laid s c observed slots t) {k slotIndex : Nat} {id : ProtoId} {declaring : String}
    (horigin : t.table.originAt? k = some (id, declaring, slotIndex)) :
    ∃ found slot, t.vtable? declaring = some found ∧ found[slotIndex]? = some slot ∧
      slot.id = id := by
  rcases ht.originAt?_cases horigin with ⟨-, horigin⟩ | ⟨j, hj, rfl, heq⟩
  · obtain ⟨found, slot, hfound, hslot, hid⟩ := hs.anchored k id declaring slotIndex horigin
    have hne := hc.ne_of_isResolved (State.isResolved_iff.mpr ⟨found, hfound⟩)
    exact ⟨found, slot, by rwa [ht.vtable?_of_ne hne], hslot, hid⟩
  · obtain ⟨rfl, hrest⟩ := Prod.mk.inj heq
    obtain ⟨rfl, rfl⟩ := Prod.mk.inj hrest
    have hid : (slots.map VtableSlot.id)[(s.parentVtable c).length + j]? =
        some (ProtoId.ofIndex (s.table.size + j)) := by
      rw [ht.ids_eq, List.getElem?_append_right (by rw [List.length_map]; omega),
        List.length_map, Nat.add_sub_cancel_left, nextIds, List.getElem?_map,
        List.getElem?_range hj]
      rfl
    rw [List.getElem?_map, Option.map_eq_some_iff] at hid
    obtain ⟨slot, hslot, hid⟩ := hid
    exact ⟨slots, slot, ht.vtable?_self, hslot, hid⟩

/-- Resolving a class that is ready keeps the invariant. -/
theorem coherent_of_laid (hs : Coherent h store s) (hc : Ready h store s c)
    (ht : Laid s c observed slots t) (hobs : store.get? c.name = some observed)
    (hcyclic : h.isCyclic c.name = false)
    (hlength : (s.parentVtable c).length ≤ observed.length)
    (hbound : t.table.size < 2 ^ 32) (hinside : Inside h t) : Coherent h store t := by
  refine {
    inside := hinside
    supported := fun _ _ => supported_of_laid hs hc ht hobs hcyclic
    acyclic := ?_
    observed := ?_
    inherited := fun _ _ _ _ => inherited_of_laid hs hc ht hcyclic
    numbered := ?_
    ascending := ?_
    backed := fun _ _ _ _ => backed_of_laid hs hc ht hbound
    anchored := fun _ _ _ _ => anchored_of_laid hs hc ht }
  · intro name hname
    by_cases hself : name = c.name
    · rwa [hself]
    · exact hs.acyclic name (ht.isResolved_of_ne hself hname)
  · intro name found hfound
    rcases ht.vtable?_cases hfound with ⟨rfl, rfl⟩ | ⟨-, hfound⟩
    · exact ⟨observed, hobs, ht.length_eq hlength, ht.slots_eq⟩
    · exact hs.observed name found hfound
  · intro k id declaring slotIndex horigin
    rcases ht.originAt?_cases horigin with ⟨-, horigin⟩ | ⟨j, hj, rfl, heq⟩
    · exact hs.numbered k id declaring slotIndex horigin
    · obtain ⟨rfl, -⟩ := Prod.mk.inj heq
      exact index_ofIndex_of_laid ht hbound hj
  · intro name found hfound
    rcases ht.vtable?_cases hfound with ⟨rfl, rfl⟩ | ⟨-, hfound⟩
    · exact ascending_of_laid hs ht hbound
    · exact hs.ascending name found hfound

end Laying

theorem coherent_of_settles (hs : Coherent h store s) (hc : Ready h store s c)
    (hstep : Settles h store s c t) (hinside : Inside h t) (hbound : t.table.size < 2 ^ 32) :
    Coherent h store t := by
  rcases hstep.unlaid_or_laid hc with ht | ⟨observed, slots, ht, hobs, hcyclic, hlength⟩
  · exact coherent_of_unlaid hs ht hinside
  · exact coherent_of_laid hs hc ht hobs hcyclic hlength hbound hinside

theorem inside_of_leads (hlead : Leads h store State.initial s) : Inside h s := by
  induction hlead with
  | refl => exact inside_initial h
  | settle _ hc ih => exact inside_settle ih hc

/-- The invariant holds in every state of a merge as long as there are numbers for all
prototypes. -/
theorem coherent_of_leads (hlead : Leads h store State.initial s)
    (hbound : s.table.size < 2 ^ 32) : Coherent h store s := by
  induction hlead with
  | refl => exact coherent_initial h store
  | @settle s c hlead hc ih =>
    have hinside := inside_of_leads hlead
    have hstep := @settles_settle h store s hinside c
    have hs := ih (Nat.lt_of_le_of_lt (size_le_of_settles hc hstep) hbound)
    exact coherent_of_settles hs hc hstep (inside_settle hinside hc) hbound

/-- A property of all states of a merge is proved for the start and for one step between coherent
states. -/
theorem invariant_of_leads {P : State → Prop} (hinitial : P State.initial)
    (hpreserved : ∀ {s t : State} {c : ClassNode}, Coherent h store s → P s →
      Ready h store s c → Settles h store s c t → Coherent h store t →
      t.table.size < 2 ^ 32 → P t)
    (hlead : Leads h store State.initial s) (hbound : s.table.size < 2 ^ 32) : P s := by
  induction hlead with
  | refl => exact hinitial
  | @settle s c hlead hc ih =>
    have hstep := @settles_settle h store s (inside_of_leads hlead) c
    have hbound' := Nat.lt_of_le_of_lt (size_le_of_settles hc hstep) hbound
    exact hpreserved (coherent_of_leads hlead hbound') (ih hbound') hc hstep
      (coherent_of_leads (hlead.settle hc) hbound) hbound

end VtableMerge.Merge
