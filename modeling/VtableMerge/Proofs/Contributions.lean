import VtableMerge.Proofs.Gathering
import VtableMerge.Proofs.Refolding

/-!
What the classes linked to a declaring class tell about a slot, and what the prototype of the slot
knows of it. The order in which the classes were settled decides which of two disagreeing texts
is kept, but never whether something is known at all.
-/
namespace VtableMerge.Merge

def toldAt (store : ObservationStore) (slotIndex : Nat) (name : String) : List Signature :=
  match store.slot? name slotIndex with
  | none => []
  | some o => o.told

/-- What the declaring class of a slot and the classes linked to it tell about the slot. -/
def contributions (h : Hierarchy) (store : ObservationStore) (s : State) (declaring : String)
    (slotIndex : Nat) : List Signature :=
  ((h.nodes.map ClassNode.name).filter fun name => decide (Lineal h s name declaring)).flatMap
    (toldAt store slotIndex)

variable {h : Hierarchy} {store : ObservationStore} {s : State}

theorem contains_of_isResolved (hinside : Inside h s) {name : String}
    (hname : s.isResolved name = true) : h.contains name = true := by
  by_contra hnot
  have hnone := hinside name (by simpa using hnot)
  simp [State.isResolved, State.vtable?, hnone] at hname

theorem mem_contributions (hinside : Inside h s) {declaring : String} {slotIndex : Nat}
    {told : Signature} : told ∈ contributions h store s declaring slotIndex ↔
      ∃ name, Lineal h s name declaring ∧ told ∈ toldAt store slotIndex name := by
  simp only [contributions, List.mem_flatMap, List.mem_filter, decide_eq_true_eq]
  constructor
  · rintro ⟨name, ⟨-, hlineal⟩, htold⟩
    exact ⟨name, hlineal, htold⟩
  · rintro ⟨name, hlineal, htold⟩
    have hcontains := contains_of_isResolved hinside hlineal.isResolved_left
    exact ⟨name, ⟨h.contains_iff_mem_names.mp hcontains, hlineal⟩, htold⟩

section Order

/-- What comes behind a later name comes behind an earlier one. -/
theorem mem_after_trans {name middle first : String} {names : List String}
    (hnodup : names.Nodup) (hmiddle : middle ∈ after first names)
    (hname : name ∈ after middle names) : name ∈ after first names := by
  induction names with
  | nil => cases hname
  | cons front rest ih =>
    rw [List.nodup_cons] at hnodup
    simp only [after] at hmiddle hname ⊢
    split at hmiddle
    · next hfront =>
      rw [if_pos hfront]
      split at hname
      · exact hname
      · exact mem_of_mem_after hname
    · next hfront =>
      rw [if_neg hfront]
      have hne : front ≠ middle := by
        rintro rfl
        exact hnodup.1 (mem_of_mem_after hmiddle)
      rw [if_neg hne] at hname
      exact ih hnodup.2 hmiddle hname

/-- A class linked to another one is that class or settled after it. -/
theorem FoldsInto.mem_after_of_lineal {order : List String} (hf : FoldsInto h store s order)
    {name above : String} (hlineal : Lineal h s name above) :
    name = above ∨ name ∈ after above order := by
  induction hlineal with
  | self _ => exact Or.inl rfl
  | up hname hparent habove ih =>
    have hbehind := hf.parents_first _ _ hname habove.isResolved_left hparent
    rcases ih with rfl | hmem
    · exact Or.inr hbehind
    · exact Or.inr (mem_after_trans hf.nodup hmem hbehind)

/-- The declaring class and its contributors are the classes linked to it. -/
theorem FoldsInto.lineal_iff_mem_contributors {order : List String}
    (hf : FoldsInto h store s order) {name declaring : String}
    (hdeclaring : s.isResolved declaring = true) : Lineal h s name declaring ↔
      name ∈ declaring :: contributors h s order declaring := by
  simp only [contributors, List.mem_cons, List.mem_filter, decide_eq_true_eq]
  constructor
  · intro hlineal
    exact (hf.mem_after_of_lineal hlineal).imp_right fun hmem => ⟨hmem, hlineal⟩
  · rintro (rfl | ⟨-, hlineal⟩)
    · exact Lineal.self hdeclaring
    · exact hlineal

end Order

section Folding
variable {slotIndex : Nat}

/-- A fold step gathers what the class tells. -/
theorem gathers_enrichBy {told : List Signature} {folded : Prototype × Diagnostics}
    (hfolded : Gathers told folded.1.toSignature) (name : String) :
    Gathers (told ++ toldAt store slotIndex name)
      (enrichBy store slotIndex folded name).1.toSignature := by
  unfold toldAt enrichBy
  cases store.slot? name slotIndex with
  | none => rwa [List.append_nil]
  | some o => exact hfolded.enrich o name slotIndex

/-- A fold gathers what all its classes tell. -/
theorem gathers_foldl_enrichBy {told : List Signature} {folded : Prototype × Diagnostics}
    (hfolded : Gathers told folded.1.toSignature) (names : List String) :
    Gathers (told ++ names.flatMap (toldAt store slotIndex))
      (names.foldl (enrichBy store slotIndex) folded).1.toSignature := by
  induction names generalizing told folded with
  | nil => simpa using hfolded
  | cons name names ih =>
    rw [List.flatMap_cons, ← List.append_assoc, List.foldl_cons]
    exact ih (gathers_enrichBy hfolded name)

end Folding

/-- The fold that a prototype is, from the observation of the declaring class on. -/
theorem FoldsInto.exists_fold {order : List String} (hf : FoldsInto h store s order)
    {p : Prototype} (hp : p ∈ s.table.prototypes) :
    ∃ o conflicts, store.slot? p.declaringClass p.slotIndex = some o ∧
      (contributors h s order p.declaringClass).foldl (enrichBy store p.slotIndex)
        (Prototype.declared p.id p.declaringClass p.slotIndex o, []) = (p, conflicts) := by
  obtain ⟨conflicts, hfold⟩ := hf.prototypes p hp
  obtain ⟨o, ho, hend⟩ := Option.map_eq_some_iff.mp hfold
  exact ⟨o, conflicts, ho, hend⟩

theorem isResolved_declaringClass (hs : Coherent h store s) {p : Prototype}
    (hp : p ∈ s.table.prototypes) : s.isResolved p.declaringClass = true := by
  obtain ⟨k, hk⟩ := List.getElem?_of_mem hp
  obtain ⟨slots, -, hslots, -⟩ := hs.exists_declaring_slot hk
  exact State.isResolved_iff.mpr ⟨slots, hslots⟩

/-- What is folded into a prototype is what the linked classes tell about its slot. -/
theorem FoldsInto.mem_contributions_iff {order : List String} (hf : FoldsInto h store s order)
    (hs : Coherent h store s) {p : Prototype} (hp : p ∈ s.table.prototypes) {o : Observation}
    (ho : store.slot? p.declaringClass p.slotIndex = some o) (told : Signature) :
    told ∈ o.told ++ (contributors h s order p.declaringClass).flatMap (toldAt store p.slotIndex) ↔
      told ∈ contributions h store s p.declaringClass p.slotIndex := by
  have hself : toldAt store p.slotIndex p.declaringClass = o.told := by rw [toldAt, ho]
  rw [mem_contributions hs.inside, ← hself, ← List.flatMap_cons, List.mem_flatMap]
  simp only [hf.lineal_iff_mem_contributors (isResolved_declaringClass hs hp)]

/-- A prototype knows what the linked classes tell about its slot. -/
theorem gathers_contributions (hs : Coherent h store s) {order : List String}
    (hf : FoldsInto h store s order) {p : Prototype} (hp : p ∈ s.table.prototypes) :
    Gathers (contributions h store s p.declaringClass p.slotIndex) p.toSignature := by
  obtain ⟨o, conflicts, ho, hend⟩ := hf.exists_fold hp
  let start : Prototype × Diagnostics :=
    (Prototype.declared p.id p.declaringClass p.slotIndex o, [])
  have hstart : Gathers o.told start.1.toSignature := Gathers.ofObservation o
  have hfold := @gathers_foldl_enrichBy store p.slotIndex o.told start hstart
    (contributors h s order p.declaringClass)
  rw [hend] at hfold
  exact hfold.congr (hf.mem_contributions_iff hs hp ho)

/-- Whatever names are resolved and whatever the observations disagree on, every prototype knows
what the linked classes tell about its slot and nothing else, as long as there are numbers for
all prototypes. -/
theorem gathers_resolveAll (h : Hierarchy) (store : ObservationStore) (names : List String)
    (hbound : (resolveAll h store names).table.size < 2 ^ 32) :
    ∀ p ∈ (resolveAll h store names).table.prototypes,
      Gathers (contributions h store (resolveAll h store names) p.declaringClass p.slotIndex)
        p.toSignature := by
  have hlead := @leads_resolveAll h store names
  intro p hp
  exact gathers_contributions (coherent_of_leads hlead hbound) (foldsInto_of_leads hlead hbound) hp

/-- Device tells nothing about its second slot, and Disk tells its name. -/
theorem gathers_resolveAll_sample :
    sampleState.table.size < 2 ^ 32 ∧
      sampleState.isResolved "Disk" = true ∧
      (toldAt sampleStore 1 "Device").map Signature.name = [] ∧
      (toldAt sampleStore 1 "Disk").map Signature.name = ["read"] ∧
      (sampleState.table.get? ⟨1⟩).map (fun p => (p.declaringClass, p.slotIndex, p.name)) =
        some ("Device", 1, "read") ∧
      ∀ p ∈ sampleState.table.prototypes,
        Gathers (contributions sampleHierarchy sampleStore sampleState p.declaringClass p.slotIndex)
          p.toSignature :=
  ⟨by decide, by decide, by decide, by decide, by decide,
    gathers_resolveAll sampleHierarchy sampleStore _ (by decide)⟩

end VtableMerge.Merge
