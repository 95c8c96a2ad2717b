import VtableMerge.Proofs.Consistency

/-!
Classes share prototypes exactly where a chain of resolved classes links them. A linked ancestor
gives its vtable as the start of the vtable below. Where some class between the two was not
resolved they have no prototype in common, since the declaring class would lie above both.
-/
namespace VtableMerge.Merge

variable {h : Hierarchy} {store : ObservationStore} {s : State}

theorem lineal_of_climb {n : Nat} {name above : String} (hclimb : h.climb n name = some above)
    (hresolved : ∀ i ≤ n, ∀ passed, h.climb i name = some passed → s.isResolved passed = true) :
    Lineal h s name above := by
  induction n generalizing name with
  | zero =>
    obtain rfl : name = above := by simpa [Hierarchy.climb] using hclimb
    exact Lineal.self (hresolved 0 (Nat.le_refl _) name rfl)
  | succ n ih =>
    have hname := hresolved 0 (Nat.zero_le _) name rfl
    rw [Hierarchy.climb, Option.bind_eq_some_iff] at hclimb
    obtain ⟨parent, hparent, hrest⟩ := hclimb
    refine Lineal.up hname hparent (ih hrest fun i hi passed hpassed => ?_)
    apply hresolved (i + 1) (by omega) passed
    rw [Hierarchy.climb, hparent]
    exact hpassed

theorem Lineal.exists_climb {name above : String} (hlineal : Lineal h s name above) :
    ∃ n, h.climb n name = some above ∧
      ∀ i ≤ n, ∀ passed, h.climb i name = some passed → s.isResolved passed = true := by
  induction hlineal with
  | @self name hname =>
    refine ⟨0, rfl, fun i hi passed hpassed => ?_⟩
    obtain rfl : i = 0 := by omega
    obtain rfl : name = passed := by simpa [Hierarchy.climb] using hpassed
    exact hname
  | @up name parent above hname hparent _ ih =>
    obtain ⟨n, hclimb, hresolved⟩ := ih
    have hstep : ∀ i, h.climb (i + 1) name = h.climb i parent := fun i => by
      rw [Hierarchy.climb, hparent, Option.bind_some]
    refine ⟨n + 1, (hstep n).trans hclimb, fun i hi passed hpassed => ?_⟩
    cases i with
    | zero =>
      obtain rfl : name = passed := by simpa [Hierarchy.climb] using hpassed
      exact hname
    | succ i => exact hresolved i (by omega) passed ((hstep i).symm.trans hpassed)

/-- The vtable of a linked class starts with the vtable above. -/
theorem Lineal.ids_prefix (hs : Coherent h store s) {name above : String}
    (hlineal : Lineal h s name above) {slots upper : List VtableSlot}
    (hslots : s.vtable? name = some slots) (hupper : s.vtable? above = some upper) :
    upper.map VtableSlot.id <+: slots.map VtableSlot.id := by
  induction hlineal generalizing slots with
  | self _ =>
    rw [hslots, Option.some.injEq] at hupper
    rw [hupper]
  | up _ hparent habove ih =>
    obtain ⟨middle, hmiddle⟩ := State.isResolved_iff.mp habove.isResolved_left
    exact (ih hmiddle hupper).trans (hs.inherited _ _ _ _ hslots hparent hmiddle)

/-- A number in two vtables stands at one position, and both classes are linked to the declaring
class. -/
theorem Coherent.exists_shared (hs : Coherent h store s) {name other : String}
    {slots slots' : List VtableSlot} (hslots : s.vtable? name = some slots)
    (hslots' : s.vtable? other = some slots') {i j : Nat} {slot slot' : VtableSlot}
    (hi : slots[i]? = some slot) (hj : slots'[j]? = some slot') (hid : slot.id = slot'.id) :
    i = j ∧ ∃ p, s.table.get? slot.id = some p ∧ Lineal h s name p.declaringClass ∧
      Lineal h s other p.declaringClass := by
  obtain ⟨p, hp, -, hpi, hlineal⟩ := hs.exists_prototype hslots hi
  obtain ⟨q, hq, -, hqj, hlineal'⟩ := hs.exists_prototype hslots' hj
  rw [← hid, hp, Option.some.injEq] at hq
  subst hq
  exact ⟨hpi.symm.trans hqj, p, hp, hlineal, hlineal'⟩

/-- A class between two resolved ones that was not resolved parts their vtables. -/
theorem Coherent.disjoint_of_gap (hs : Coherent h store s) {name above between : String}
    {slots upper : List VtableSlot} (hslots : s.vtable? name = some slots)
    (hupper : s.vtable? above = some upper) {n i : Nat}
    (hclimb : h.climb (n + 1) name = some above) (hi : i ≤ n)
    (hbetween : h.climb i name = some between) (hgap : s.isResolved between = false) :
    List.Disjoint (upper.map VtableSlot.id) (slots.map VtableSlot.id) := by
  intro id hup hlow
  obtain ⟨slot, hslot, rfl⟩ := List.mem_map.mp hlow
  obtain ⟨slot', hslot', hid⟩ := List.mem_map.mp hup
  obtain ⟨k, hk⟩ := List.getElem?_of_mem hslot
  obtain ⟨l, hl⟩ := List.getElem?_of_mem hslot'
  obtain ⟨-, p, -, hlineal, hlineal'⟩ := hs.exists_shared hslots hupper hk hl hid.symm
  obtain ⟨a, ha, hresolved⟩ := hlineal.exists_climb
  obtain ⟨b, hb, -⟩ := hlineal'.exists_climb
  -- Both walks end at the declaring class, so the walk through the gap is the resolved one.
  have hthrough : h.climb (n + 1 + b) name = some p.declaringClass := by
    rw [h.climb_add, hclimb]
    exact hb
  have hsame := h.climb_unique_of_not_cyclic (hs.acyclic _ hlineal.isResolved_right) ha hthrough
  have hyes := hresolved i (by omega) between hbetween
  rw [hgap] at hyes
  cases hyes

structure SharesExactly (h : Hierarchy) (s : State) : Prop where
  /-- The vtable of an ancestor is the start of the vtable below it, when all classes between
  are resolved, and otherwise the two have no prototype in common. -/
  ancestor : ∀ name above n slots upper, s.outcome? name = some (.resolved slots) →
    s.outcome? above = some (.resolved upper) → h.climb (n + 1) name = some above →
    ((∀ i between, 0 < i → i ≤ n → h.climb i name = some between →
        s.isResolved between = true) →
      upper.map VtableSlot.id <+: slots.map VtableSlot.id ∧ upper.length ≤ slots.length) ∧
    ((∃ i between, 0 < i ∧ i ≤ n ∧ h.climb i name = some between ∧
        s.isResolved between = false) →
      List.Disjoint (upper.map VtableSlot.id) (slots.map VtableSlot.id))
  /-- A prototype of two vtables stands at one position in both, and both classes are linked
  to the class that declares it. -/
  shared : ∀ name other (slots slots' : List VtableSlot) (i j : Nat) (slot slot' : VtableSlot),
    s.outcome? name = some (.resolved slots) → s.outcome? other = some (.resolved slots') →
    slots[i]? = some slot → slots'[j]? = some slot' → slot.id = slot'.id →
    i = j ∧ ∃ p, s.table.get? slot.id = some p ∧ Lineal h s name p.declaringClass ∧
      Lineal h s other p.declaringClass

/-- Whatever names are resolved, vtables share exactly the prototypes of linked classes, as long
as there are numbers for all prototypes. -/
theorem sharesExactly_resolveAll (h : Hierarchy) (store : ObservationStore)
    (names : List String) (hbound : (resolveAll h store names).table.size < 2 ^ 32) :
    SharesExactly h (resolveAll h store names) := by
  have hs := coherent_of_leads (@leads_resolveAll h store names) hbound
  refine { ancestor := ?_, shared := ?_ }
  · intro name above n slots upper hname habove hclimb
    have hslots := State.vtable?_eq_some_iff.mpr hname
    have hupper := State.vtable?_eq_some_iff.mpr habove
    constructor
    · intro hbetween
      have hlineal : Lineal h (resolveAll h store names) name above := by
        refine lineal_of_climb hclimb fun i hi passed hpassed => ?_
        rcases Nat.eq_zero_or_pos i with rfl | hpos
        · obtain rfl : name = passed := by simpa [Hierarchy.climb] using hpassed
          exact State.isResolved_iff.mpr ⟨slots, hslots⟩
        · by_cases hend : i = n + 1
          · subst hend
            rw [hclimb, Option.some.injEq] at hpassed
            subst hpassed
            exact State.isResolved_iff.mpr ⟨upper, hupper⟩
          · exact hbetween i passed hpos (by omega) hpassed
      have hstart := hlineal.ids_prefix hs hslots hupper
      exact ⟨hstart, by simpa only [List.length_map] using hstart.length_le⟩
    · rintro ⟨i, between, -, hi, hpassed, hgap⟩
      exact hs.disjoint_of_gap hslots hupper hclimb hi hpassed hgap
  · intro name other slots slots' i j slot slot' hname hother hi hj hid
    exact hs.exists_shared (State.vtable?_eq_some_iff.mpr hname)
      (State.vtable?_eq_some_iff.mpr hother) hi hj hid

/-- Disk shares the prototypes of Device. Shade, below a class that is not observed, shares none. -/
theorem sharesExactly_resolveAll_sample :
    sampleState.table.size < 2 ^ 32 ∧
      (["Device", "Disk", "Shade"].map fun name =>
        (sampleState.vtable? name).map (List.map VtableSlot.id)) =
          [some [⟨0⟩, ⟨1⟩], some [⟨0⟩, ⟨1⟩, ⟨2⟩], some [⟨3⟩]] ∧
      SharesExactly sampleHierarchy sampleState :=
  ⟨by decide, by decide, sharesExactly_resolveAll sampleHierarchy sampleStore _ (by decide)⟩

end VtableMerge.Merge
