import VtableMerge.Proofs.Consistency
import VtableMerge.Proofs.Fates

/-!
Every state of a merge agrees with the fates of the classes, up to the numbers of the prototypes.
So two merges that agree above a class agree about the class, whatever else they hold and in
whatever order they settle it.
-/
namespace VtableMerge.Merge

theorem SlotView.ofTable?_eq_map_originAt? (table : PrototypeTable) (slot : VtableSlot) :
    SlotView.ofTable? table slot =
      (table.originAt? slot.id.index).map fun origin => SlotView.ofSlot origin.2 slot := by
  rw [SlotView.ofTable?, PrototypeTable.originAt?, Option.map_map]
  rfl

section Agreement
variable {h : Hierarchy} {store : ObservationStore} {s t : State} {c : ClassNode}

/-- What an outcome shows depends on the origins of the prototypes only. -/
theorem Shows.mono {table table' : PrototypeTable} {o : Outcome} {fate : Fate}
    (horigins : ∀ k, k < table.size → table'.originAt? k = table.originAt? k)
    (hshows : Shows table o fate) : Shows table' o fate := by
  cases hshows with
  | unobserved => exact Shows.unobserved
  | failed => exact Shows.failed
  | @resolved slots views hviews =>
    refine Shows.resolved ((List.map_congr_left fun slot hslot => ?_).trans hviews)
    have hsome : SlotView.ofTable? table slot ∈ views.map some :=
      hviews ▸ List.mem_map_of_mem hslot
    obtain ⟨view, -, hview⟩ := List.mem_map.mp hsome
    simp only [SlotView.ofTable?_eq_map_originAt?] at hview ⊢
    obtain ⟨origin, horigin, -⟩ := Option.map_eq_some_iff.mp hview.symm
    rw [horigins _ (PrototypeTable.originAt?_lt_size horigin)]

/-- The prototypes behind the slots of a class that was just laid. -/
theorem origins_of_laid {observed : List Observation} {slots : List VtableSlot}
    {above : List SlotView} (hs : Coherent h store s) (ht : Laid s c observed slots t)
    (hbound : t.table.size < 2 ^ 32)
    (habove : (s.parentVtable c).map (SlotView.ofTable? s.table) = above.map some) :
    (slots.map VtableSlot.id).map (fun id => (t.table.originAt? id.index).map Prod.snd) =
      (above.map SlotView.declared ++ (List.range (observed.length - above.length)).map
        fun j => (c.name, above.length + j)).map some := by
  have hlength : (s.parentVtable c).length = above.length := by
    simpa only [List.length_map] using congrArg List.length habove
  have hsize := ht.size_eq
  simp only [ht.ids_eq, nextIds, List.map_append, List.map_map]
  congr 1
  · have hdeclared := congrArg (List.map (Option.map SlotView.declared)) habove
    simp only [List.map_map] at hdeclared
    refine (List.map_congr_left fun slot hslot => ?_).trans hdeclared
    simp only [Function.comp_apply, SlotView.ofTable?_eq_map_originAt?, Option.map_map]
    rw [ht.originAt?_old _ (index_lt_of_mem_parentVtable hs hslot)]
    rfl
  · rw [hlength]
    refine List.map_congr_left fun j hj => ?_
    rw [List.mem_range] at hj
    simp only [Function.comp_apply]
    rw [ProtoId.index_ofIndex (by omega), ht.originAt?_new j (by omega), hlength]
    rfl

theorem shows_of_laid {observed : List Observation} {slots : List VtableSlot}
    {above : List SlotView} (hs : Coherent h store s) (ht : Laid s c observed slots t)
    (hbound : t.table.size < 2 ^ 32)
    (habove : (s.parentVtable c).map (SlotView.ofTable? s.table) = above.map some) :
    Shows t.table (.resolved slots) (.resolved (viewSlots c.name above observed)) := by
  apply Shows.resolved
  have horigins := origins_of_laid hs ht hbound habove
  calc
    _ = List.zipWith (fun id o => SlotView.ofTable? t.table (VtableSlot.ofObservation id o))
        (slots.map VtableSlot.id) observed := by
      conv_lhs => rw [ht.slots_eq]
      exact List.map_zipWith
    _ = List.zipWith
        (fun declared o => declared.map fun declared =>
          SlotView.ofSlot declared (VtableSlot.ofObservation (ProtoId.ofIndex 0) o))
        ((slots.map VtableSlot.id).map fun id => (t.table.originAt? id.index).map Prod.snd)
        observed := by
      simp only [List.zipWith_map_left, SlotView.ofTable?_eq_map_originAt?, Option.map_map]
      rfl
    _ = _ := by
      rw [horigins, List.zipWith_map_left, viewSlots, List.map_zipWith]
      rfl

structure Agrees (h : Hierarchy) (store : ObservationStore) (s : State) : Prop where
  settled : ∀ name o, s.outcome? name = some o → ∃ fate,
    Fated h store name (fate, s.diagnostics.aboutClass name) ∧ Shows s.table o fate
  unsettled : ∀ name, s.outcome? name = none → s.diagnostics.aboutClass name = []

theorem aboutClass_append (ds es : Diagnostics) (name : String) :
    Diagnostics.aboutClass (ds ++ es) name = ds.aboutClass name ++ es.aboutClass name :=
  List.filter_append ..

theorem aboutClass_eq_nil_of_class {ds : Diagnostics} {name other : String}
    (hds : ∀ d ∈ ds, d.className = other) (hne : name ≠ other) : ds.aboutClass name = [] := by
  apply List.filter_eq_nil_iff.mpr
  intro d hd
  simp [hds d hd, Ne.symm hne]

theorem aboutClass_eq_nil_of_conflicts {ds : Diagnostics} {name : String}
    (hds : ∀ d ∈ ds, d.kind.category = .conflict) : ds.aboutClass name = [] := by
  apply List.filter_eq_nil_iff.mpr
  intro d hd
  simp [hds d hd]

/-- What resolving a class inherits is what the fate of its parent says. -/
theorem exists_views_of_resolved {above : Fate} {observed : List Observation}
    (hinside : Inside h s) (hobs : store.get? c.name = some observed)
    (hcyclic : h.isCyclic c.name = false)
    (hparent : ∀ parent, c.parent = some parent → s.outcome? parent ≠ some .failed)
    (hlength : (s.parentVtable c).length ≤ observed.length)
    (habove : ∀ parent, c.parent = some parent → h.contains parent = true →
      ∃ o, s.outcome? parent = some o ∧ Shows s.table o above) :
    ∃ views, (s.parentVtable c).map (SlotView.ofTable? s.table) = views.map some ∧
      fateOf h store c above = (.resolved (viewSlots c.name views observed), rootFindings h c) := by
  simp only [fateOf, hobs, hcyclic, rootFindings, State.parentVtable] at hlength ⊢
  cases hp : c.parent with
  | none => exact ⟨[], rfl, rfl⟩
  | some parent =>
    by_cases hcontains : h.contains parent = true
    · obtain ⟨o, ho, hshows⟩ := habove parent hp hcontains
      simp only [hcontains, if_true, Option.bind_some]
      cases hshows with
      | failed => exact absurd ho (hparent parent hp)
      | unobserved => exact ⟨[], by simp [State.vtable?, ho], rfl⟩
      | @resolved slots views hviews =>
        have hslots : s.vtable? parent = some slots := State.vtable?_eq_some_iff.mpr ho
        have hcount : slots.length = views.length := by
          simpa only [List.length_map] using congrArg List.length hviews
        simp only [hp, Option.bind_some, hslots, Option.getD_some] at hlength
        refine ⟨views, by rwa [hslots], ?_⟩
        simp only [fateBelow, if_neg (show ¬ observed.length < views.length by omega)]
        rfl
    · have hcontains : h.contains parent = false := by simpa using hcontains
      refine ⟨[], ?_, ?_⟩
      · simp [State.vtable?, hinside parent hcontains]
      · simp [hcontains]

theorem aboutClass_rootFindings (h : Hierarchy) (c : ClassNode) :
    Diagnostics.aboutClass (rootFindings h c) c.name = rootFindings h c := by
  unfold rootFindings
  split
  · rfl
  · split
    · rfl
    · simp [Diagnostics.aboutClass, missingParent, Diagnostic.ofClass, DiagnosticKind.category]

structure Follows (s : State) (c : ClassNode) (fate : Fate × Diagnostics) (t : State) :
    Prop where
  outcome : ∃ o, t.outcomes = (c.name, o) :: s.outcomes ∧ Shows t.table o fate.1
  originAt?_old : ∀ k, k < s.table.size → t.table.originAt? k = s.table.originAt? k
  findings : ∃ found, t.diagnostics = s.diagnostics ++ found ∧
    (∀ d ∈ found, d.className = c.name) ∧ found.aboutClass c.name = fate.2

theorem follows_settleAs {o : Outcome} {fate : Fate} (hshows : Shows s.table o fate)
    {findings : Diagnostics} (hclass : ∀ d ∈ findings, d.className = c.name)
    (hkind : ∀ d ∈ findings, d.kind.category ≠ .conflict) :
    Follows s c (fate, findings) (s.settleAs c.name o findings) where
  outcome := ⟨o, rfl, hshows⟩
  originAt?_old _ _ := rfl
  findings := by
    refine ⟨findings, rfl, hclass, List.filter_eq_self.mpr fun d hd => ?_⟩
    simp [hclass d hd, hkind d hd]

theorem follows_of_resolved {above : Fate} {observed : List Observation}
    (hs : Coherent h store s) (hobs : store.get? c.name = some observed)
    (hcyclic : h.isCyclic c.name = false)
    (hparent : ∀ parent, c.parent = some parent → s.outcome? parent ≠ some .failed)
    (hlength : (s.parentVtable c).length ≤ observed.length)
    (habove : ∀ parent, c.parent = some parent → h.contains parent = true →
      ∃ o, s.outcome? parent = some o ∧ Shows s.table o above)
    (hbound : (layClass s c.name ((s.parentVtable c).map VtableSlot.id) observed
      (rootFindings h c)).table.size < 2 ^ 32) :
    Follows s c (fateOf h store c above)
      (layClass s c.name ((s.parentVtable c).map VtableSlot.id) observed (rootFindings h c)) := by
  obtain ⟨views, hviews, hfate⟩ :=
    exists_views_of_resolved hs.inside hobs hcyclic hparent hlength habove
  obtain ⟨slots, ht⟩ := laid_layClass s c (rootFindings h c) hlength
  rw [hfate]
  refine {
    outcome := ⟨_, ht.outcomes, shows_of_laid hs ht hbound hviews⟩
    originAt?_old := ht.originAt?_old
    findings := ⟨_, rfl, ?_, ?_⟩ }
  · intro d hd
    rcases List.mem_append.mp hd with hd | hd
    · exact className_of_mem_rootFindings hd
    · exact (of_mem_layFrom_conflicts c.name hd).1
  · rw [aboutClass_append, aboutClass_rootFindings, aboutClass_eq_nil_of_conflicts fun d hd =>
      (of_mem_layFrom_conflicts c.name hd).2, List.append_nil]

/-- Every step does what the fate of the class says, given the fate of its parent. -/
theorem follows_of_settles {above : Fate} (hs : Coherent h store s)
    (hstep : Settles h store s c t) (hbound : t.table.size < 2 ^ 32)
    (habove : needsParent h store c.name = true → ∀ parent, c.parent = some parent →
      h.contains parent = true → ∃ o, s.outcome? parent = some o ∧ Shows s.table o above) :
    Follows s c (fateOf h store c above) t := by
  have hneeds : ∀ observed, store.get? c.name = some observed → h.isCyclic c.name = false →
      needsParent h store c.name = true := fun observed hobs hcyclic => by
    simp [needsParent, ObservationStore.contains, hobs, hcyclic]
  cases hstep with
  | unobserved hobs =>
    simp only [fateOf, hobs]
    exact follows_settleAs Shows.unobserved (by simp) (by simp)
  | cyclic observed hobs hcyclic =>
    simp only [fateOf, hobs, hcyclic, if_true]
    exact follows_settleAs Shows.failed (by simp [cyclicAncestry, Diagnostic.ofClass])
      (by simp [cyclicAncestry, Diagnostic.ofClass, DiagnosticKind.category])
  | orphaned observed parent hobs hcyclic hparent hinside hfailed =>
    obtain ⟨o, ho, hshows⟩ := habove (hneeds observed hobs hcyclic) parent hparent hinside
    obtain rfl : Outcome.failed = o := Option.some.inj (hfailed.symm.trans ho)
    cases hshows
    simp only [fateOf, hobs, hcyclic, hparent, hinside, if_true, fateBelow]
    exact follows_settleAs Shows.failed (by simp [unresolvedAncestor, Diagnostic.ofClass])
      (by simp [unresolvedAncestor, Diagnostic.ofClass, DiagnosticKind.category])
  | shrunk observed parent slots hobs hcyclic hparent hinside hslots hlength =>
    obtain ⟨o, ho, hshows⟩ := habove (hneeds observed hobs hcyclic) parent hparent hinside
    rw [State.vtable?_eq_some_iff.mp hslots, Option.some.injEq] at ho
    subst ho
    cases hshows with
    | @resolved _ views hviews =>
      have hcount : slots.length = views.length := by
        simpa only [List.length_map] using congrArg List.length hviews
      rw [hcount] at hlength ⊢
      simp only [fateOf, hobs, hcyclic, hparent, hinside, if_true, fateBelow, if_pos hlength]
      exact follows_settleAs Shows.failed (by simp [slotCountShrink, Diagnostic.ofClass])
        (by simp [slotCountShrink, Diagnostic.ofClass, DiagnosticKind.category])
  | resolved observed hobs hcyclic hparent hlength =>
    exact follows_of_resolved hs hobs hcyclic hparent hlength
      (habove (hneeds observed hobs hcyclic)) hbound

theorem agrees_of_follows {fate : Fate × Diagnostics} (ha : Agrees h store s)
    (hc : Ready h store s c) (ht : Follows s c fate t) (hfate : Fated h store c.name fate) :
    Agrees h store t := by
  obtain ⟨o, houtcomes, hshows⟩ := ht.outcome
  obtain ⟨found, hfound, hclass, hself⟩ := ht.findings
  have hother : ∀ name, name ≠ c.name →
      t.diagnostics.aboutClass name = s.diagnostics.aboutClass name := fun name hne => by
    rw [hfound, aboutClass_append, aboutClass_eq_nil_of_class hclass hne, List.append_nil]
  have hfresh : t.diagnostics.aboutClass c.name = fate.2 := by
    rw [hfound, aboutClass_append, ha.unsettled c.name hc.fresh, List.nil_append, hself]
  constructor
  · intro name outcome ho
    rw [State.outcome?_of_cons houtcomes] at ho
    split at ho
    · next heq =>
      subst heq
      cases ho
      exact ⟨fate.1, by rwa [hfresh], hshows⟩
    · next hne =>
      obtain ⟨fate', hfate', hshows'⟩ := ha.settled name outcome ho
      exact ⟨fate', by rwa [hother name hne], hshows'.mono ht.originAt?_old⟩
  · intro name ho
    rw [State.outcome?_of_cons houtcomes] at ho
    split at ho
    · cases ho
    · next hne =>
      rw [hother name hne]
      exact ha.unsettled name ho

/-- The fate above a class that is ready, where the class needs it. -/
theorem exists_fate_above (ha : Agrees h store s) (hc : Ready h store s c) :
    ∃ above : Fate × Diagnostics, needsParent h store c.name = true →
      ∀ parent, c.parent = some parent → h.contains parent = true →
        Fated h store parent above ∧ ∃ o, s.outcome? parent = some o ∧ Shows s.table o above.1 := by
  by_cases hneeds : needsParent h store c.name = true
  · cases hparent : c.parent with
    | none => exact ⟨(.unobserved, []), fun _ parent hp => by cases hp⟩
    | some parent =>
      by_cases hinside : h.contains parent = true
      · obtain ⟨o, ho⟩ := Option.isSome_iff_exists.mp (hc.supported hneeds parent hparent hinside)
        obtain ⟨fate, hfate, hshows⟩ := ha.settled parent o ho
        refine ⟨(fate, s.diagnostics.aboutClass parent), fun _ p hp _ => ?_⟩
        obtain rfl : parent = p := Option.some.inj hp
        exact ⟨hfate, o, ho, hshows⟩
      · refine ⟨(.unobserved, []), fun _ p hp hyes => ?_⟩
        obtain rfl : parent = p := Option.some.inj hp
        exact absurd hyes hinside
  · exact ⟨(.unobserved, []), fun hyes => absurd hyes hneeds⟩

theorem agrees_of_settles (hs : Coherent h store s) (ha : Agrees h store s)
    (hc : Ready h store s c) (hstep : Settles h store s c t) (hbound : t.table.size < 2 ^ 32) :
    Agrees h store t := by
  obtain ⟨above, habove⟩ := exists_fate_above ha hc
  have hfate : Fated h store c.name (fateOf h store c above.1) :=
    Fated.intro hc.known fun hneeds parent hparent hinside =>
      (habove hneeds parent hparent hinside).1
  refine agrees_of_follows ha hc (follows_of_settles hs hstep hbound ?_) hfate
  intro hneeds parent hparent hinside
  exact (habove hneeds parent hparent hinside).2

theorem agrees_initial (h : Hierarchy) (store : ObservationStore) :
    Agrees h store State.initial where
  settled _ _ ho := by cases ho
  unsettled _ _ := rfl

theorem agrees_of_leads (hlead : Leads h store State.initial s)
    (hbound : s.table.size < 2 ^ 32) : Agrees h store s :=
  invariant_of_leads (agrees_initial h store)
    (fun hs ha hc hstep _ hbound => agrees_of_settles hs ha hc hstep hbound) hlead hbound

end Agreement

/-- Two merges over hierarchies and stores that agree above a class give the class one fate and
the same findings, whatever else they hold and whatever names are resolved. -/
theorem fate_resolveAll_of_sameAncestry {h h' : Hierarchy} {store store' : ObservationStore}
    {names names' : List String} {name : String}
    (hsame : SameAncestry h h' store store' name) (hname : h.contains name = true)
    (hmem : name ∈ names) (hmem' : name ∈ names')
    (hbound : (resolveAll h store names).table.size < 2 ^ 32)
    (hbound' : (resolveAll h' store' names').table.size < 2 ^ 32) :
    ∃ o o' fate, (resolveAll h store names).outcome? name = some o ∧
      (resolveAll h' store' names').outcome? name = some o' ∧
      Shows (finish h (resolveAll h store names)).prototypes o fate ∧
      Shows (finish h' (resolveAll h' store' names')).prototypes o' fate ∧
      (finish h (resolveAll h store names)).diagnostics.aboutClass name =
        (finish h' (resolveAll h' store' names')).diagnostics.aboutClass name := by
  have hname' : h'.contains name = true :=
    (@SameAncestry.contains_eq h h' store store' name hsame 0 name rfl).trans hname
  obtain ⟨o, ho⟩ := Option.isSome_iff_exists.mp
    (@resolveAll_outcome?_isSome h store names name hmem hname)
  obtain ⟨o', ho'⟩ := Option.isSome_iff_exists.mp
    (@resolveAll_outcome?_isSome h' store' names' name hmem' hname')
  obtain ⟨fate, hfate, hshows⟩ :=
    (agrees_of_leads (@leads_resolveAll h store names) hbound).settled name o ho
  obtain ⟨fate', hfate', hshows'⟩ :=
    (agrees_of_leads (@leads_resolveAll h' store' names') hbound').settled name o' ho'
  obtain ⟨rfl, hfindings⟩ := Prod.mk.inj (fated_unique hsame hfate hfate')
  exact ⟨o, o', fate', ho, ho', hshows, hshows', hfindings.symm⟩

def reversedHierarchy : Hierarchy :=
  { nodes := sampleHierarchy.nodes.reverse
    distinct := by decide }

/-- The small forest and its reverse share the classes above Tape, and the observations of these
suffice to tell why Tape fails. -/
theorem fate_resolveAll_of_sameAncestry_sample :
    ∃ o o' fate,
      (resolveAll sampleHierarchy sampleStore ["Shade", "Disk", "Tape"]).outcome? "Tape" =
        some o ∧
      (resolveAll reversedHierarchy ⟨sampleStore.classes.take 3⟩ ["Tape"]).outcome? "Tape" =
        some o' ∧
      Shows (finish sampleHierarchy
        (resolveAll sampleHierarchy sampleStore ["Shade", "Disk", "Tape"])).prototypes o fate ∧
      Shows (finish reversedHierarchy
        (resolveAll reversedHierarchy ⟨sampleStore.classes.take 3⟩ ["Tape"])).prototypes o' fate ∧
      (finish sampleHierarchy (resolveAll sampleHierarchy sampleStore
          ["Shade", "Disk", "Tape"])).diagnostics.aboutClass "Tape" =
        (finish reversedHierarchy (resolveAll reversedHierarchy ⟨sampleStore.classes.take 3⟩
          ["Tape"])).diagnostics.aboutClass "Tape" :=
  fate_resolveAll_of_sameAncestry
    (SameAncestry.of_le_size (by decide) (by decide)) (by decide) (by decide) (by decide)
    (by decide) (by decide)

end VtableMerge.Merge
