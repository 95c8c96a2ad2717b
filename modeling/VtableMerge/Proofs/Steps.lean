import VtableMerge.Proofs.Coherence

/-!
What a step of a merge does to the table and the vtables. It leaves both alone, or it lays the
vtable of one class: the numbers of the parent's vtable first, then the next free ones, which name
new prototypes behind all others.
-/
namespace VtableMerge.Merge

variable {h : Hierarchy} {store : ObservationStore} {s t : State} {c : ClassNode}

theorem vtable?_of_cons {name : String} {o : Outcome}
    (ht : t.outcomes = (name, o) :: s.outcomes) {other : String} (hne : other ≠ name) :
    t.vtable? other = s.vtable? other :=
  State.vtable?_congr (by rw [State.outcome?_of_cons ht, if_neg hne])

namespace Ready

theorem vtable?_eq_none (hc : Ready h store s c) : s.vtable? c.name = none := by
  simp only [State.vtable?, hc.fresh]

theorem ne_of_isResolved (hc : Ready h store s c) {name : String}
    (hname : s.isResolved name = true) : name ≠ c.name := by
  rintro rfl
  rw [State.isResolved, hc.vtable?_eq_none] at hname
  cases hname

theorem parentName?_eq (hc : Ready h store s c) : h.parentName? c.name = c.parent :=
  h.parentName?_of_get? hc.known

theorem parentVtable_eq (hc : Ready h store s c) {parent : String} {above : List VtableSlot}
    (hlink : h.parentName? c.name = some parent) (habove : s.vtable? parent = some above) :
    s.parentVtable c = above := by
  rw [hc.parentName?_eq] at hlink
  simp only [State.parentVtable, hlink, Option.bind_some, habove, Option.getD_some]

end Ready

/-- What settling a class without a vtable does. -/
structure Unlaid (s : State) (c : ClassNode) (t : State) : Prop where
  outcomes : ∃ o, t.outcomes = (c.name, o) :: s.outcomes
  table_eq : t.table = s.table
  vtable?_eq : ∀ name, t.vtable? name = s.vtable? name

theorem unlaid_settleAs {o : Outcome} (findings : Diagnostics) (hc : Ready h store s c)
    (ho : ∀ slots, o ≠ .resolved slots) : Unlaid s c (s.settleAs c.name o findings) where
  outcomes := ⟨o, rfl⟩
  table_eq := rfl
  vtable?_eq name := by
    by_cases hname : name = c.name
    · subst hname
      rw [hc.vtable?_eq_none, State.vtable?, State.outcome?_of_cons (s := s) rfl, if_pos rfl]
      cases o with
      | resolved slots => exact absurd rfl (ho slots)
      | unobserved => rfl
      | failed => rfl
    · exact vtable?_of_cons rfl hname

theorem Unlaid.isResolved_eq (ht : Unlaid s c t) (name : String) :
    t.isResolved name = s.isResolved name := congrArg Option.isSome (ht.vtable?_eq name)

/-- The numbers in a vtable that was just laid. -/
theorem layFrom_slots_ids (className : String) {ids : List ProtoId}
    {observed : List Observation} (hlength : ids.length ≤ observed.length) (slotIndex : Nat)
    (table : PrototypeTable) :
    (layFrom className slotIndex table ids observed).slots.map VtableSlot.id =
      ids ++ nextIds table (observed.length - ids.length) := by
  rw [layFrom_slots className hlength, List.map_zipWith]
  have hlengths : (ids ++ nextIds table (observed.length - ids.length)).length =
      observed.length := by
    simp only [nextIds, List.length_append, List.length_map, List.length_range]
    omega
  apply List.ext_getElem
  · simp only [List.length_zipWith, hlengths, Nat.min_self]
  · intro i hi _
    simp [VtableSlot.ofObservation]

/-- What resolving a class does to the vtables and to the origins of the prototypes. -/
structure Laid (s : State) (c : ClassNode) (observed : List Observation) (slots : List VtableSlot)
    (t : State) : Prop where
  outcomes : t.outcomes = (c.name, .resolved slots) :: s.outcomes
  slots_eq : slots = List.zipWith VtableSlot.ofObservation (slots.map VtableSlot.id) observed
  ids_eq : slots.map VtableSlot.id = (s.parentVtable c).map VtableSlot.id ++
    nextIds s.table (observed.length - (s.parentVtable c).length)
  size_eq : t.table.size = s.table.size + (observed.length - (s.parentVtable c).length)
  originAt?_old : ∀ k, k < s.table.size → t.table.originAt? k = s.table.originAt? k
  originAt?_new : ∀ j, j < observed.length - (s.parentVtable c).length →
    t.table.originAt? (s.table.size + j) =
      some (ProtoId.ofIndex (s.table.size + j), c.name, (s.parentVtable c).length + j)

theorem laid_layClass (s : State) (c : ClassNode) {observed : List Observation}
    (findings : Diagnostics) (hlength : (s.parentVtable c).length ≤ observed.length) :
    ∃ slots, Laid s c observed slots
      (layClass s c.name ((s.parentVtable c).map VtableSlot.id) observed findings) := by
  have hids : ((s.parentVtable c).map VtableSlot.id).length ≤ observed.length := by
    rwa [List.length_map]
  have hslots := layFrom_slots_ids c.name hids 0 s.table
  have horigins := layFrom_origins c.name hids 0 s.table
  have hsize : (s.table.prototypes.map Prototype.origin).length = s.table.size := by
    simp [PrototypeTable.size]
  refine ⟨(layFrom c.name 0 s.table ((s.parentVtable c).map VtableSlot.id) observed).slots, {
    outcomes := rfl
    slots_eq := ?_
    ids_eq := ?_
    size_eq := ?_
    originAt?_old := ?_
    originAt?_new := ?_ }⟩
  · rw [hslots]
    exact layFrom_slots c.name hids 0 s.table
  · simpa only [List.length_map] using hslots
  · have hsize' := layFrom_size c.name hids 0 s.table
    rwa [List.length_map] at hsize'
  · intro k hk
    simp only [PrototypeTable.originAt?, layClass, ← List.getElem?_map, horigins]
    exact List.getElem?_append_left (by rwa [hsize])
  · intro j hj
    simp only [PrototypeTable.originAt?, layClass, ← List.getElem?_map, horigins]
    rw [List.getElem?_append_right (by omega), hsize, Nat.add_sub_cancel_left, nextOrigins,
      List.getElem?_map, List.getElem?_range (by simpa only [List.length_map] using hj)]
    simp only [List.length_map, Nat.zero_add, Option.map_some]

namespace Laid
variable {observed : List Observation} {slots : List VtableSlot}

theorem vtable?_self (ht : Laid s c observed slots t) : t.vtable? c.name = some slots := by
  rw [State.vtable?_eq_some_iff, State.outcome?_of_cons ht.outcomes, if_pos rfl]

theorem vtable?_of_ne (ht : Laid s c observed slots t) {other : String} (hne : other ≠ c.name) :
    t.vtable? other = s.vtable? other := vtable?_of_cons ht.outcomes hne

theorem isResolved_self (ht : Laid s c observed slots t) : t.isResolved c.name = true :=
  congrArg Option.isSome ht.vtable?_self

theorem isResolved_of_ne (ht : Laid s c observed slots t) {other : String}
    (hne : other ≠ c.name) (hother : t.isResolved other = true) : s.isResolved other = true := by
  rwa [State.isResolved, ht.vtable?_of_ne hne] at hother

theorem length_eq (ht : Laid s c observed slots t)
    (hlength : (s.parentVtable c).length ≤ observed.length) :
    slots.length = observed.length := by
  have hids := congrArg List.length ht.ids_eq
  simp only [List.length_map, List.length_append, nextIds, List.length_range] at hids
  omega

theorem isResolved_mono (ht : Laid s c observed slots t) {other : String}
    (hother : s.isResolved other = true) : t.isResolved other = true := by
  by_cases hname : other = c.name
  · subst hname
    exact ht.isResolved_self
  · rwa [State.isResolved, ht.vtable?_of_ne hname]

/-- The vtables after the step are those before it and the new one. -/
theorem vtable?_cases (ht : Laid s c observed slots t) {name : String}
    {found : List VtableSlot} (hfound : t.vtable? name = some found) :
    (name = c.name ∧ found = slots) ∨ (name ≠ c.name ∧ s.vtable? name = some found) := by
  by_cases hname : name = c.name
  · subst hname
    rw [ht.vtable?_self] at hfound
    exact Or.inl ⟨rfl, (Option.some.inj hfound).symm⟩
  · rw [ht.vtable?_of_ne hname] at hfound
    exact Or.inr ⟨hname, hfound⟩

theorem originAt?_cases (ht : Laid s c observed slots t) {k : Nat}
    {origin : ProtoId × String × Nat} (horigin : t.table.originAt? k = some origin) :
    (k < s.table.size ∧ s.table.originAt? k = some origin) ∨
      ∃ j, j < observed.length - (s.parentVtable c).length ∧ k = s.table.size + j ∧
        origin = (ProtoId.ofIndex k, c.name, (s.parentVtable c).length + j) := by
  by_cases hk : k < s.table.size
  · rw [ht.originAt?_old k hk] at horigin
    exact Or.inl ⟨hk, horigin⟩
  · have hlt := PrototypeTable.originAt?_lt_size horigin
    rw [ht.size_eq] at hlt
    obtain ⟨j, rfl⟩ : ∃ j, k = s.table.size + j := ⟨k - s.table.size, by omega⟩
    rw [ht.originAt?_new j (by omega)] at horigin
    exact Or.inr ⟨j, by omega, rfl, (Option.some.inj horigin).symm⟩

/-- A slot is inherited, with the number of the parent's slot, or new. -/
theorem slot_cases (ht : Laid s c observed slots t) {j : Nat} {slot : VtableSlot}
    (hslot : slots[j]? = some slot) :
    (∃ above, (s.parentVtable c)[j]? = some above ∧ slot.id = above.id) ∨
      ∃ i, i < observed.length - (s.parentVtable c).length ∧
        j = (s.parentVtable c).length + i ∧ slot.id = ProtoId.ofIndex (s.table.size + i) := by
  have hid : (slots.map VtableSlot.id)[j]? = some slot.id := by
    rw [List.getElem?_map, hslot]
    rfl
  rw [ht.ids_eq] at hid
  by_cases hj : j < (s.parentVtable c).length
  · rw [List.getElem?_append_left (by rwa [List.length_map]), List.getElem?_map,
      Option.map_eq_some_iff] at hid
    obtain ⟨above, habove, heq⟩ := hid
    exact Or.inl ⟨above, habove, heq.symm⟩
  · rw [List.getElem?_append_right (by rw [List.length_map]; omega), List.length_map, nextIds,
      List.getElem?_map, Option.map_eq_some_iff] at hid
    obtain ⟨i, hi, heq⟩ := hid
    obtain ⟨hlt, hval⟩ := List.getElem?_eq_some_iff.mp hi
    simp only [List.length_range, List.getElem_range] at hlt hval
    exact Or.inr ⟨i, by omega, by omega, heq.symm⟩

end Laid

theorem parentVtable_eq_nil_or (s : State) (c : ClassNode) :
    s.parentVtable c = [] ∨
      ∃ parent, c.parent = some parent ∧ s.vtable? parent = some (s.parentVtable c) := by
  unfold State.parentVtable
  cases hparent : c.parent with
  | none => exact Or.inl rfl
  | some parent =>
    cases hslots : s.vtable? parent with
    | none => exact Or.inl (by simp [hslots])
    | some slots => exact Or.inr ⟨parent, rfl, by simp [hslots]⟩

theorem ascending_parentVtable (hs : Coherent h store s) (c : ClassNode) :
    ((s.parentVtable c).map fun slot => slot.id.index).Pairwise (· < ·) := by
  rcases parentVtable_eq_nil_or s c with hnil | ⟨parent, -, hslots⟩
  · simp [hnil]
  · exact hs.ascending parent _ hslots

theorem backed_parentVtable (hs : Coherent h store s) {j : Nat} {slot : VtableSlot}
    (hslot : (s.parentVtable c)[j]? = some slot) :
    ∃ parent declaring, c.parent = some parent ∧
      s.table.originAt? slot.id.index = some (slot.id, declaring, j) ∧
      Lineal h s parent declaring := by
  rcases parentVtable_eq_nil_or s c with hnil | ⟨parent, hparent, hslots⟩
  · simp [hnil] at hslot
  · obtain ⟨declaring, horigin, hlineal⟩ := hs.backed parent _ j slot hslots hslot
    exact ⟨parent, declaring, hparent, horigin, hlineal⟩

/-- The numbers that a class inherits are numbers of prototypes. -/
theorem index_lt_of_mem_parentVtable (hs : Coherent h store s) {slot : VtableSlot}
    (hslot : slot ∈ s.parentVtable c) : slot.id.index < s.table.size := by
  obtain ⟨j, hj⟩ := List.getElem?_of_mem hslot
  obtain ⟨_, _, _, horigin, _⟩ := backed_parentVtable hs hj
  exact PrototypeTable.originAt?_lt_size horigin

/-- A class that is not cyclic is not its own parent. -/
theorem ne_of_parentName? {name parent : String} (hcyclic : h.isCyclic name = false)
    (hlink : h.parentName? name = some parent) : parent ≠ name := by
  rintro rfl
  have hself := h.isCyclic_iff_climb.mpr ⟨1, by omega, (h.climb_one _).trans hlink⟩
  rw [hcyclic] at hself
  cases hself

/-- A class that is settled only now is not the parent of a resolved class. -/
theorem parentName?_ne_of_ready (hs : Coherent h store s) (hc : Ready h store s c) {name : String}
    (hname : s.isResolved name = true) : h.parentName? name ≠ some c.name := by
  intro hlink
  have hsettled := hs.supported name c.name hname hlink
    (h.contains_iff_exists.mpr ⟨c, hc.known⟩)
  rw [hc.fresh] at hsettled
  cases hsettled

/-- A step leaves the table and the vtables alone, or it resolves the class. -/
theorem Settles.unlaid_or_laid (hc : Ready h store s c) (hstep : Settles h store s c t) :
    Unlaid s c t ∨ ∃ observed slots, Laid s c observed slots t ∧
      store.get? c.name = some observed ∧ h.isCyclic c.name = false ∧
        (s.parentVtable c).length ≤ observed.length := by
  cases hstep with
  | resolved observed hobs hcyclic hparent hlength =>
    obtain ⟨slots, ht⟩ := laid_layClass s c (rootFindings h c) hlength
    exact Or.inr ⟨observed, slots, ht, hobs, hcyclic, hlength⟩
  | unobserved hobs => exact Or.inl (unlaid_settleAs _ hc (by simp))
  | cyclic observed hobs hcyclic => exact Or.inl (unlaid_settleAs _ hc (by simp))
  | orphaned => exact Or.inl (unlaid_settleAs _ hc (by simp))
  | shrunk => exact Or.inl (unlaid_settleAs _ hc (by simp))

theorem size_le_of_settles (hc : Ready h store s c) (hstep : Settles h store s c t) :
    s.table.size ≤ t.table.size := by
  rcases hstep.unlaid_or_laid hc with ht | ⟨observed, slots, ht, -⟩
  · rw [ht.table_eq]
  · rw [ht.size_eq]
    exact Nat.le_add_right _ _

end VtableMerge.Merge
