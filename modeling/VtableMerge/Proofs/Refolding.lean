import VtableMerge.Proofs.Taking

/-!
Every state of a merge is made of folds: resolving a class goes on with the folds of the
prototypes that it inherits and starts those of the slots that it declares.
-/
namespace VtableMerge.Merge

variable {h : Hierarchy} {store : ObservationStore} {s t : State} {c : ClassNode}

section Refolding
variable {observed : List Observation} {slots : List VtableSlot}

/-- A fold begins with the origin of the prototype only. -/
theorem refold_congr {p q : Prototype} (horigin : q.origin = p.origin) (order : List String) :
    refold h store s order q = refold h store s order p := by
  obtain ⟨hid, hrest⟩ := Prod.mk.inj horigin
  obtain ⟨hclass, hindex⟩ := Prod.mk.inj hrest
  simp only [refold, hid, hclass, hindex]

theorem enrichBy_eq (slotIndex : Nat) (folded : Prototype × Diagnostics) (name : String) :
    enrichBy store slotIndex folded name =
      ((enrichBy store slotIndex (folded.1, []) name).1,
        folded.2 ++ (enrichBy store slotIndex (folded.1, []) name).2) := by
  unfold enrichBy
  split
  · rw [List.append_nil]
  · rfl

theorem enrichBy_origin (slotIndex : Nat) (folded : Prototype × Diagnostics) (name : String) :
    (enrichBy store slotIndex folded name).1.origin = folded.1.origin := by
  unfold enrichBy
  split
  · rfl
  · exact folded.1.enrich_origin _ name slotIndex

theorem taken_origin (p : Prototype) : (taken store s c p).1.origin = p.origin := by
  unfold taken
  split
  · exact enrichBy_origin _ _ _
  · rfl

theorem contributors_of_laid (hs : Coherent h store s) (hc : Ready h store s c)
    (ht : Laid s c observed slots t) (hcyclic : h.isCyclic c.name = false) {k : Nat}
    {p : Prototype} (hp : s.table.prototypes[k]? = some p) :
    contributors h t t.order p.declaringClass =
      contributors h s s.order p.declaringClass ++
        if p.id ∈ (s.parentVtable c).map VtableSlot.id then [c.name] else [] := by
  obtain ⟨upper, -, hupper, -⟩ := hs.exists_declaring_slot hp
  have hdeclaring : p.declaringClass ∈ s.order :=
    mem_order.mpr (State.isResolved_iff.mpr ⟨upper, hupper⟩)
  rw [contributors, order_of_laid hc ht, after_append_of_mem hdeclaring, List.filter_append]
  congr 1
  · apply List.filter_congr
    intro name hname
    have hne := hc.ne_of_isResolved (mem_order.mp (mem_of_mem_after hname))
    exact decide_eq_decide.mpr (lineal_of_laid_iff hs hc ht hne)
  · have hself := lineal_of_laid_self_iff hs hc ht hcyclic hp
    simp only [List.filter_cons, List.filter_nil, hself, decide_eq_true_eq]

/-- The fold of a prototype that is there goes on with what the new class takes. -/
theorem refold_of_laid (hs : Coherent h store s) (hc : Ready h store s c)
    (ht : Laid s c observed slots t) (hcyclic : h.isCyclic c.name = false) {k : Nat}
    {p : Prototype} (hp : s.table.prototypes[k]? = some p) {conflicts : Diagnostics}
    (hfold : refold h store s s.order p = some (p, conflicts)) :
    refold h store t t.order (taken store s c p).1 =
      some ((taken store s c p).1, conflicts ++ (taken store s c p).2) := by
  rw [refold_congr (taken_origin p)]
  obtain ⟨o, ho, hend⟩ := Option.map_eq_some_iff.mp hfold
  rw [refold, ho, Option.map_some, contributors_of_laid hs hc ht hcyclic hp, List.foldl_append,
    hend, taken]
  split
  · rw [List.foldl_cons, List.foldl_nil, enrichBy_eq]
  · rw [List.foldl_nil, List.append_nil]

/-- No class is settled after the one that was just resolved. -/
theorem contributors_of_laid_self (hc : Ready h store s c) (ht : Laid s c observed slots t) :
    contributors h t t.order c.name = [] := by
  have hnot : c.name ∉ s.order := fun hmem => hc.ne_of_isResolved (mem_order.mp hmem) rfl
  rw [contributors, order_of_laid hc ht, after_append_self hnot, List.filter_nil]

theorem refold_declared (hc : Ready h store s c) (ht : Laid s c observed slots t)
    (hobs : store.get? c.name = some observed) {slotIndex : Nat} {o : Observation}
    (ho : observed[slotIndex]? = some o) (id : ProtoId) :
    refold h store t t.order (Prototype.declared id c.name slotIndex o) =
      some (Prototype.declared id c.name slotIndex o, []) := by
  have hslot : store.slot? c.name slotIndex = some o := by
    rw [ObservationStore.slot?, hobs]
    exact ho
  rw [refold]
  simp only [Prototype.declared]
  rw [hslot, contributors_of_laid_self hc ht]
  rfl

end Refolding

section Steps
variable {observed : List Observation}

/-- A class linked to the declaring class has at least its slots. -/
theorem slot?_isSome_of_lineal (hs : Coherent h store s) {p : Prototype}
    (hp : p ∈ s.table.prototypes) {name : String} (hlineal : Lineal h s name p.declaringClass) :
    (store.slot? name p.slotIndex).isSome = true := by
  obtain ⟨k, hk⟩ := List.getElem?_of_mem hp
  obtain ⟨upper, slot, hupper, hslot, -⟩ := hs.exists_declaring_slot hk
  obtain ⟨slots, hslots⟩ := State.isResolved_iff.mp hlineal.isResolved_left
  obtain ⟨observed, hobs, hlength, -⟩ := hs.observed name slots hslots
  have hlt : p.slotIndex < upper.length := (List.getElem?_eq_some_iff.mp hslot).1
  have hle := (hlineal.ids_prefix hs hslots hupper).length_le
  simp only [List.length_map] at hle
  rw [ObservationStore.slot?, hobs, Option.bind_some, List.getElem?_eq_getElem (by omega)]
  rfl

theorem contributed_of_coherent (hs : Coherent h store s) (order : List String) :
    ∀ p ∈ s.table.prototypes, ∀ name ∈ contributors h s order p.declaringClass,
      (store.slot? name p.slotIndex).isSome = true := fun _ hp _ hname =>
  slot?_isSome_of_lineal hs hp (of_decide_eq_true (List.mem_filter.mp hname).2)

theorem refold_of_unlaid (ht : Unlaid s c t) (order : List String) :
    refold h store t order = refold h store s order := by
  have hlineal : ∀ name above, Lineal h t name above ↔ Lineal h s name above := fun name above =>
    ⟨fun hl => hl.mono fun other hother => by rwa [← ht.isResolved_eq],
      fun hl => hl.mono fun other hother => by rwa [ht.isResolved_eq]⟩
  funext p
  simp only [refold, contributors, hlineal]

theorem foldsInto_of_unlaid (hf : FoldsInto h store s s.order) (hc : Ready h store s c)
    (ht : Unlaid s c t) (hcoherent : Coherent h store t)
    (hconflicts : t.diagnostics.conflicts = s.diagnostics.conflicts) :
    FoldsInto h store t t.order where
  nodup := by
    rw [order_of_unlaid hc ht]
    exact hf.nodup
  mem_iff _ := mem_order
  parents_first := by
    simp only [order_of_unlaid hc ht, ht.isResolved_eq]
    exact hf.parents_first
  contributed := contributed_of_coherent hcoherent t.order
  prototypes := by
    rw [ht.table_eq, order_of_unlaid hc ht, refold_of_unlaid ht]
    exact hf.prototypes
  conflicts := by
    have hrefold : refoldConflicts h store t s.order = refoldConflicts h store s s.order := by
      funext p
      rw [refoldConflicts, refold_of_unlaid ht, refoldConflicts]
    rw [ht.table_eq, order_of_unlaid hc ht, hconflicts, hrefold]
    exact hf.conflicts

/-- A class resolved last comes after its parent, and no class that is there comes before its
parent now. -/
theorem parents_first_of_laid {slots : List VtableSlot} (hs : Coherent h store s)
    (hc : Ready h store s c) (ht : Laid s c observed slots t)
    (hcyclic : h.isCyclic c.name = false)
    (hfirst : ∀ name parent, s.isResolved name = true → s.isResolved parent = true →
      h.parentName? name = some parent → name ∈ after parent s.order) {name parent : String}
    (hname : t.isResolved name = true) (hparent : t.isResolved parent = true)
    (hlink : h.parentName? name = some parent) : name ∈ after parent t.order := by
  rw [order_of_laid hc ht]
  by_cases hself : name = c.name
  · subst hself
    have habove := ht.isResolved_of_ne (ne_of_parentName? hcyclic hlink) hparent
    rw [after_append_of_mem (mem_order.mpr habove)]
    exact List.mem_append_right _ List.mem_cons_self
  · have hname := ht.isResolved_of_ne hself hname
    have hne : parent ≠ c.name := by
      rintro rfl
      exact parentName?_ne_of_ready hs hc hname hlink
    have habove := ht.isResolved_of_ne hne hparent
    rw [after_append_of_mem (mem_order.mpr habove)]
    exact List.mem_append_left _ (hfirst name parent hname habove hlink)

theorem conflicts_rootFindings (h : Hierarchy) (c : ClassNode) :
    Diagnostics.conflicts (rootFindings h c) = [] := by
  unfold rootFindings
  split
  · rfl
  · split <;> rfl

theorem conflicts_layClass (ids : List ProtoId) :
    (layClass s c.name ids observed (rootFindings h c)).diagnostics.conflicts =
      s.diagnostics.conflicts ++ (layFrom c.name 0 s.table ids observed).conflicts := by
  have hall : ∀ d ∈ (layFrom c.name 0 s.table ids observed).conflicts,
      (d.kind.category == .conflict) = true := fun d hd => by
    rw [(of_mem_layFrom_conflicts c.name hd).2]
    rfl
  simp only [layClass, State.settleAs, Diagnostics.conflicts_append, conflicts_rootFindings,
    List.nil_append]
  rw [Diagnostics.conflicts, Diagnostics.conflicts, List.filter_eq_self.mpr hall]

/-- Resolving a class goes on with every fold and starts those of its own slots. -/
theorem foldsInto_layClass (hf : FoldsInto h store s s.order) (hs : Coherent h store s)
    (hc : Ready h store s c) (hobs : store.get? c.name = some observed)
    (hcyclic : h.isCyclic c.name = false)
    (hlength : (s.parentVtable c).length ≤ observed.length)
    (ht : t = layClass s c.name ((s.parentVtable c).map VtableSlot.id) observed
      (rootFindings h c)) (hcoherent : Coherent h store t) : FoldsInto h store t t.order := by
  obtain ⟨slots, hlaid⟩ := laid_layClass s c (rootFindings h c) hlength
  rw [← ht] at hlaid
  obtain ⟨fresh, htable, hfresh⟩ := layFrom_prototypes hs hobs hlength
  have htable : t.table.prototypes =
      s.table.prototypes.map (fun p => (taken store s c p).1) ++ fresh := by
    rw [ht]
    exact htable
  have hold : ∀ p ∈ s.table.prototypes, ∃ conflicts,
      refold h store s s.order p = some (p, conflicts) ∧
      refold h store t t.order (taken store s c p).1 =
        some ((taken store s c p).1, conflicts ++ (taken store s c p).2) := by
    intro p hp
    obtain ⟨k, hk⟩ := List.getElem?_of_mem hp
    obtain ⟨conflicts, hfold⟩ := hf.prototypes p hp
    exact ⟨conflicts, hfold, refold_of_laid hs hc hlaid hcyclic hk hfold⟩
  have hnew : ∀ p ∈ fresh, refold h store t t.order p = some (p, []) := by
    intro p hp
    obtain ⟨id, slotIndex, o, ho, rfl⟩ := hfresh p hp
    exact refold_declared hc hlaid hobs ho id
  refine {
    nodup := ?_
    mem_iff := fun _ => mem_order
    parents_first := fun name parent hname hparent hlink =>
      parents_first_of_laid hs hc hlaid hcyclic hf.parents_first hname hparent hlink
    contributed := contributed_of_coherent hcoherent t.order
    prototypes := ?_
    conflicts := ?_ }
  · rw [order_of_laid hc hlaid]
    refine List.nodup_append.mpr ⟨hf.nodup, List.nodup_singleton _, ?_⟩
    intro name hname other hother
    rw [List.mem_singleton.mp hother]
    exact hc.ne_of_isResolved (mem_order.mp hname)
  · rw [htable]
    intro p hp
    rcases List.mem_append.mp hp with hp | hp
    · obtain ⟨q, hq, rfl⟩ := List.mem_map.mp hp
      obtain ⟨conflicts, -, hfold⟩ := hold q hq
      exact ⟨_, hfold⟩
    · exact ⟨[], hnew p hp⟩
  · have hfound : t.diagnostics.conflicts = s.diagnostics.conflicts ++
        (layFrom c.name 0 s.table ((s.parentVtable c).map VtableSlot.id) observed).conflicts := by
      rw [ht, conflicts_layClass]
    have hnone : fresh.flatMap (refoldConflicts h store t t.order) = [] := by
      refine List.flatMap_eq_nil_iff.mpr fun p hp => ?_
      rw [refoldConflicts, hnew p hp]
      rfl
    calc t.diagnostics.conflicts
      _ = s.diagnostics.conflicts ++ (layFrom c.name 0 s.table
            ((s.parentVtable c).map VtableSlot.id) observed).conflicts := hfound
      List.Perm _ (s.table.prototypes.flatMap (refoldConflicts h store s s.order) ++
            s.table.prototypes.flatMap fun p => (taken store s c p).2) :=
        hf.conflicts.append (perm_layFrom_conflicts hs hobs hlength)
      List.Perm _ (s.table.prototypes.flatMap fun p =>
            refoldConflicts h store s s.order p ++ (taken store s c p).2) :=
        List.flatMap_append_perm _ _ _
      _ = s.table.prototypes.flatMap fun p =>
            refoldConflicts h store t t.order (taken store s c p).1 := by
        refine List.flatMap_congr fun p hp => ?_
        obtain ⟨conflicts, hfold, hfold'⟩ := hold p hp
        rw [refoldConflicts, refoldConflicts, hfold, hfold']
        rfl
      _ = t.table.prototypes.flatMap (refoldConflicts h store t t.order) := by
        rw [htable, List.flatMap_append, List.flatMap_map, hnone, List.append_nil]

theorem foldsInto_of_settles (hf : FoldsInto h store s s.order) (hs : Coherent h store s)
    (hc : Ready h store s c) (hstep : Settles h store s c t) (hcoherent : Coherent h store t) :
    FoldsInto h store t t.order := by
  have hunlaid : ∀ {o : Outcome} {found : Diagnostics}, (∀ slots, o ≠ .resolved slots) →
      found.conflicts = [] → t = s.settleAs c.name o found →
      FoldsInto h store t t.order := by
    rintro o found ho hfound rfl
    refine foldsInto_of_unlaid hf hc (unlaid_settleAs found hc ho) hcoherent ?_
    rw [State.settleAs, Diagnostics.conflicts_append, hfound, List.append_nil]
  cases hstep with
  | unobserved => exact hunlaid (by simp) rfl rfl
  | cyclic => exact hunlaid (by simp) rfl rfl
  | orphaned => exact hunlaid (by simp) rfl rfl
  | shrunk => exact hunlaid (by simp) rfl rfl
  | resolved observed hobs hcyclic hparent hlength =>
    exact foldsInto_layClass hf hs hc hobs hcyclic hlength rfl hcoherent

theorem foldsInto_initial (h : Hierarchy) (store : ObservationStore) :
    FoldsInto h store State.initial State.initial.order where
  nodup := List.nodup_nil
  mem_iff _ := mem_order
  parents_first _ _ hname := by cases hname
  contributed _ hp := by cases hp
  prototypes _ hp := by cases hp
  conflicts := List.Perm.nil

theorem foldsInto_of_leads (hlead : Leads h store State.initial s)
    (hbound : s.table.size < 2 ^ 32) : FoldsInto h store s s.order :=
  invariant_of_leads (foldsInto_initial h store)
    (fun hs hf hc hstep ht _ => foldsInto_of_settles hf hs hc hstep ht) hlead hbound

end Steps

/-- Whatever names are resolved, the resolved classes have one order that explains every
prototype and every conflict, as long as there are numbers for all prototypes. -/
theorem foldsInto_resolveAll (h : Hierarchy) (store : ObservationStore) (names : List String)
    (hbound : (resolveAll h store names).table.size < 2 ^ 32) :
    ∃ order, FoldsInto h store (resolveAll h store names) order :=
  ⟨_, foldsInto_of_leads (@leads_resolveAll h store names) hbound⟩

/-- Disk is resolved with the prototypes of Device. It gives the second one a name, and it has
another name for the first one. -/
theorem foldsInto_resolveAll_sample :
    sampleState.table.size < 2 ^ 32 ∧
      sampleState.isResolved "Disk" = true ∧
      (sampleState.table.prototypes.map fun p => (p.declaringClass, p.slotIndex, p.name)) =
        [("Device", 0, "open"), ("Device", 1, "read"), ("Disk", 2, "seek"), ("Shade", 0, "dim"),
          ("Stray", 0, "roam")] ∧
      (sampleState.diagnostics.conflicts.map fun d => (d.className, d.slotIndex)) =
        [("Disk", some 0)] ∧
      ∃ order, FoldsInto sampleHierarchy sampleStore sampleState order :=
  ⟨by decide, by decide, by decide, by decide,
    foldsInto_resolveAll sampleHierarchy sampleStore _ (by decide)⟩

end VtableMerge.Merge
