import VtableMerge.Proofs.Consistency

/-!
How failures pass down the parent links. A class fails because it is its own ancestor, because
its parent failed, or because it has fewer slots than its parent. So a failure reaches every
observed class below for as long as the classes between are observed too. A class without
observations ends it: what stands below starts anew and declares all its prototypes itself. Only
that their numbers lead to them needs numbers for all prototypes.
-/
namespace VtableMerge.Merge

/-- Why a class may fail: its own circle, or a parent that failed or was resolved with more
slots. -/
def Faulty (h : Hierarchy) (s : State) (name : String) : Prop :=
  h.isCyclic name = true ∨ ∃ parent, h.parentName? name = some parent ∧
    (s.outcome? parent = some .failed ∨ s.isResolved parent = true)

inductive Verdict (h : Hierarchy) (store : ObservationStore) (s : State) (c : ClassNode)
    (found : Diagnostics) : Outcome → Prop
  | unobserved (hobs : store.contains c.name = false) : Verdict h store s c found .unobserved
  | failed (hobs : store.contains c.name = true) (hfaulty : Faulty h s c.name)
      (hfound : ∃ d ∈ found, d.className = c.name ∧ d.category = .integrity) :
      Verdict h store s c found .failed
  | resolved (slots : List VtableSlot) (hobs : store.contains c.name = true)
      (hcyclic : h.isCyclic c.name = false)
      (hparent : ∀ parent, h.parentName? c.name = some parent →
        s.outcome? parent ≠ some .failed) : Verdict h store s c found (.resolved slots)

/-- A slot for each observation of a class, with the number of a prototype that the class declares
there. -/
structure Fresh (store : ObservationStore) (table : PrototypeTable) (name : String)
    (slots : List VtableSlot) : Prop where
  length_eq : ∃ observed, store.get? name = some observed ∧ slots.length = observed.length
  declared : ∀ i slot, slots[i]? = some slot →
    ∃ k, slot.id = ProtoId.ofIndex k ∧ table.originAt? k = some (slot.id, name, i)

/-- What holds of the outcomes in every state. -/
structure Accounted (h : Hierarchy) (store : ObservationStore) (s : State) : Prop where
  unobserved_iff : ∀ name o, s.outcome? name = some o →
    (o = .unobserved ↔ store.contains name = false)
  supported : ∀ name parent, s.isResolved name = true → h.parentName? name = some parent →
    h.contains parent = true → (s.outcome? parent).isSome = true
  spared : ∀ name parent, s.isResolved name = true → h.parentName? name = some parent →
    s.outcome? parent ≠ some .failed
  faulty : ∀ name, s.outcome? name = some .failed → Faulty h s name
  reported : ∀ name, s.outcome? name = some .failed →
    ∃ d ∈ s.diagnostics, d.className = name ∧ d.category = .integrity
  declared : ∀ p ∈ s.table.prototypes, s.isResolved p.declaringClass = true
  fresh : ∀ name parent slots, s.vtable? name = some slots → h.parentName? name = some parent →
    store.contains parent = false → Fresh store s.table name slots

variable {h : Hierarchy} {store : ObservationStore} {s t : State} {c : ClassNode}

theorem accounted_initial (h : Hierarchy) (store : ObservationStore) :
    Accounted h store State.initial where
  unobserved_iff _ _ ho := by cases ho
  supported _ _ hname := by cases hname
  spared _ _ hname := by cases hname
  faulty _ ho := by cases ho
  reported _ ho := by cases ho
  declared _ hp := by cases hp
  fresh _ _ _ hslots := by cases hslots

theorem isResolved_iff_outcome? {name : String} :
    s.isResolved name = true ↔ ∃ slots, s.outcome? name = some (.resolved slots) := by
  simp only [State.isResolved_iff, State.vtable?_eq_some_iff]

section Step

theorem exists_verdict (hc : Ready h store s c) (hstep : Settles h store s c t) :
    ∃ o found, t.outcomes = (c.name, o) :: s.outcomes ∧
      t.diagnostics = s.diagnostics ++ found ∧ Verdict h store s c found o := by
  have hlink := hc.parentName?_eq
  have hcontains : ∀ {observed}, store.get? c.name = some observed →
      store.contains c.name = true := fun hobs => by simp [ObservationStore.contains, hobs]
  cases hstep with
  | unobserved hobs =>
    exact ⟨_, _, rfl, rfl, Verdict.unobserved (by simp [ObservationStore.contains, hobs])⟩
  | cyclic observed hobs hcyclic =>
    exact ⟨_, _, rfl, rfl,
      Verdict.failed (hcontains hobs) (Or.inl hcyclic) ⟨_, List.mem_singleton_self _, rfl, rfl⟩⟩
  | orphaned observed parent hobs hcyclic hparent hinside hfailed =>
    exact ⟨_, _, rfl, rfl,
      Verdict.failed (hcontains hobs) (Or.inr ⟨parent, hlink.trans hparent, Or.inl hfailed⟩)
        ⟨_, List.mem_singleton_self _, rfl, rfl⟩⟩
  | shrunk observed parent slots hobs hcyclic hparent hinside hslots hlength =>
    have hresolved : s.isResolved parent = true := State.isResolved_iff.mpr ⟨slots, hslots⟩
    exact ⟨_, _, rfl, rfl,
      Verdict.failed (hcontains hobs) (Or.inr ⟨parent, hlink.trans hparent, Or.inr hresolved⟩)
        ⟨_, List.mem_singleton_self _, rfl, rfl⟩⟩
  | resolved observed hobs hcyclic hparent hlength =>
    exact ⟨_, _, rfl, rfl, Verdict.resolved _ (hcontains hobs) hcyclic fun parent hp =>
      hparent parent (hlink.symm.trans hp)⟩

/-- A reason to fail stays one, since outcomes stay. -/
theorem Faulty.mono (hmono : ∀ name o, s.outcome? name = some o → t.outcome? name = some o)
    {name : String} (hfaulty : Faulty h s name) : Faulty h t name := by
  rcases hfaulty with hcyclic | ⟨parent, hparent, hfailed | hresolved⟩
  · exact Or.inl hcyclic
  · exact Or.inr ⟨parent, hparent, Or.inl (hmono parent _ hfailed)⟩
  · obtain ⟨slots, hslots⟩ := isResolved_iff_outcome?.mp hresolved
    exact Or.inr ⟨parent, hparent, Or.inr (isResolved_iff_outcome?.mpr
      ⟨slots, hmono parent _ hslots⟩)⟩

/-- The prototypes after a step are declared by resolved classes. -/
theorem declared_of_settles (hs : Accounted h store s) (hc : Ready h store s c)
    (hstep : Settles h store s c t) : ∀ p ∈ t.table.prototypes,
      t.isResolved p.declaringClass = true := by
  intro p hp
  rcases hstep.unlaid_or_laid hc with ht | ⟨observed, slots, ht, -⟩
  · rw [ht.table_eq] at hp
    rw [ht.isResolved_eq]
    exact hs.declared p hp
  · obtain ⟨k, hk⟩ := List.getElem?_of_mem hp
    have horigin : t.table.originAt? k = some p.origin := by
      rw [PrototypeTable.originAt?, hk, Option.map_some]
    rcases ht.originAt?_cases horigin with ⟨-, hold⟩ | ⟨j, -, -, hnew⟩
    · obtain ⟨q, hq, heq⟩ := Option.map_eq_some_iff.mp hold
      have hclass : q.declaringClass = p.declaringClass :=
        congrArg (fun origin => origin.2.1) heq
      rw [← hclass]
      exact ht.isResolved_mono (hs.declared q (List.mem_of_getElem? hq))
    · have hclass : p.declaringClass = c.name := congrArg (fun origin => origin.2.1) hnew
      rw [hclass]
      exact ht.isResolved_self

theorem Accounted.vtable?_eq_none (hs : Accounted h store s) {name : String}
    (hunobserved : store.contains name = false) : s.vtable? name = none := by
  cases hslots : s.vtable? name with
  | none => rfl
  | some slots =>
    have ho := State.vtable?_eq_some_iff.mp hslots
    cases (hs.unobserved_iff name _ ho).mpr hunobserved

theorem Fresh.of_laid {observed : List Observation} {slots slots' : List VtableSlot} {name : String}
    (hfresh : Fresh store s.table name slots') (ht : Laid s c observed slots t) :
    Fresh store t.table name slots' where
  length_eq := hfresh.length_eq
  declared i slot hslot := by
    obtain ⟨k, hid, horigin⟩ := hfresh.declared i slot hslot
    have hk := PrototypeTable.originAt?_lt_size horigin
    exact ⟨k, hid, (ht.originAt?_old k hk).trans horigin⟩

/-- Without a vtable above, all slots of a class are new. -/
theorem fresh_of_laid {observed : List Observation} {slots : List VtableSlot}
    (ht : Laid s c observed slots t) (hobs : store.get? c.name = some observed)
    (hnil : s.parentVtable c = []) : Fresh store t.table c.name slots where
  length_eq := ⟨observed, hobs, ht.length_eq (by simp [hnil])⟩
  declared i slot hslot := by
    rcases ht.slot_cases hslot with ⟨above, habove, -⟩ | ⟨j, hj, hij, hid⟩
    · simp [hnil] at habove
    · obtain rfl : i = j := by simpa [hnil] using hij
      refine ⟨s.table.size + i, hid, ?_⟩
      rw [ht.originAt?_new i hj, hid, hnil, List.length_nil, Nat.zero_add]

theorem fresh_of_settles (hs : Accounted h store s) (hc : Ready h store s c)
    (hstep : Settles h store s c t) {name parent : String} {slots : List VtableSlot}
    (hslots : t.vtable? name = some slots) (hparent : h.parentName? name = some parent)
    (hunobserved : store.contains parent = false) : Fresh store t.table name slots := by
  rcases hstep.unlaid_or_laid hc with ht | ⟨observed, slots', ht, hobs, -⟩
  · rw [ht.table_eq]
    exact hs.fresh name parent slots (ht.vtable?_eq name ▸ hslots) hparent hunobserved
  · rcases ht.vtable?_cases hslots with ⟨rfl, rfl⟩ | ⟨-, hold⟩
    · refine fresh_of_laid ht hobs ?_
      rw [hc.parentName?_eq] at hparent
      rw [State.parentVtable, hparent, Option.bind_some, hs.vtable?_eq_none hunobserved]
      rfl
    · exact (hs.fresh name parent slots hold hparent hunobserved).of_laid ht

/-- Nothing that is resolved has a parent that is settled only now. -/
theorem Accounted.parentName?_ne (hs : Accounted h store s) (hc : Ready h store s c)
    {name : String} (hname : s.isResolved name = true) : h.parentName? name ≠ some c.name := by
  intro hlink
  have hsettled := hs.supported name c.name hname hlink
    (h.contains_iff_exists.mpr ⟨c, hc.known⟩)
  rw [hc.fresh] at hsettled
  cases hsettled

structure Adds (s : State) (c : ClassNode) (o : Outcome) (t : State) : Prop where
  self : t.outcome? c.name = some o
  of_ne : ∀ name, name ≠ c.name → t.outcome? name = s.outcome? name
  mono : ∀ name o, s.outcome? name = some o → t.outcome? name = some o

theorem adds_of_cons {o : Outcome} (hc : Ready h store s c)
    (ht : t.outcomes = (c.name, o) :: s.outcomes) : Adds s c o t where
  self := by rw [State.outcome?_of_cons ht, if_pos rfl]
  of_ne name hne := by rw [State.outcome?_of_cons ht, if_neg hne]
  mono name o ho := by
    have hne : name ≠ c.name := by
      rintro rfl
      rw [hc.fresh] at ho
      cases ho
    rw [State.outcome?_of_cons ht, if_neg hne, ho]

namespace Adds
variable {o o' : Outcome} {name : String}

/-- An outcome after the step is that of its class or was there before. -/
theorem cases_of_outcome? (ht : Adds s c o t) (ho : t.outcome? name = some o') :
    (name = c.name ∧ o' = o) ∨ (name ≠ c.name ∧ s.outcome? name = some o') := by
  by_cases heq : name = c.name
  · rw [heq, ht.self, Option.some.injEq] at ho
    exact Or.inl ⟨heq, ho.symm⟩
  · exact Or.inr ⟨heq, (ht.of_ne name heq).symm.trans ho⟩

theorem cases_of_isResolved (ht : Adds s c o t) (hname : t.isResolved name = true) :
    (name = c.name ∧ ∃ slots, o = .resolved slots) ∨ s.isResolved name = true := by
  obtain ⟨slots, hslots⟩ := isResolved_iff_outcome?.mp hname
  rcases ht.cases_of_outcome? hslots with ⟨heq, ho⟩ | ⟨-, hold⟩
  · exact Or.inl ⟨heq, slots, ho.symm⟩
  · exact Or.inr (isResolved_iff_outcome?.mpr ⟨slots, hold⟩)

theorem isSome_mono (ht : Adds s c o t) (hsettled : (s.outcome? name).isSome = true) :
    (t.outcome? name).isSome = true := by
  obtain ⟨o', ho⟩ := Option.isSome_iff_exists.mp hsettled
  rw [ht.mono name o' ho]
  rfl

end Adds

/-- Every step keeps the account. -/
theorem accounted_of_settles (hs : Accounted h store s) (hc : Ready h store s c)
    (hstep : Settles h store s c t) : Accounted h store t := by
  obtain ⟨o, found, houtcomes, hdiagnostics, hverdict⟩ := exists_verdict hc hstep
  have ht : Adds s c o t := adds_of_cons hc houtcomes
  refine {
    unobserved_iff := fun name o' ho => ?_
    supported := fun name parent hname hparent hinside => ?_
    spared := fun name parent hname hparent => ?_
    faulty := fun name ho => ?_
    reported := fun name ho => ?_
    declared := declared_of_settles hs hc hstep
    fresh := fun _ _ _ hslots hparent hunobserved =>
      fresh_of_settles hs hc hstep hslots hparent hunobserved }
  · rcases ht.cases_of_outcome? ho with ⟨rfl, rfl⟩ | ⟨-, hold⟩
    · cases hverdict with
      | unobserved hobs => simp [hobs]
      | failed hobs _ _ => simp [hobs]
      | resolved _ hobs _ _ => simp [hobs]
    · exact hs.unobserved_iff name o' hold
  · rcases ht.cases_of_isResolved hname with ⟨rfl, slots, rfl⟩ | hname
    · cases hverdict with
      | resolved _ hobs hcyclic _ =>
        have hneeds : needsParent h store c.name = true := by simp [needsParent, hobs, hcyclic]
        exact ht.isSome_mono
          (hc.supported hneeds parent (hc.parentName?_eq ▸ hparent) hinside)
    · exact ht.isSome_mono (hs.supported name parent hname hparent hinside)
  · rcases ht.cases_of_isResolved hname with ⟨rfl, slots, rfl⟩ | hname
    · cases hverdict with
      | resolved _ hobs hcyclic hspared =>
        rw [ht.of_ne parent (ne_of_parentName? hcyclic hparent)]
        exact hspared parent hparent
    · have hne : parent ≠ c.name := by
        rintro rfl
        exact hs.parentName?_ne hc hname hparent
      rw [ht.of_ne parent hne]
      exact hs.spared name parent hname hparent
  · rcases ht.cases_of_outcome? ho with ⟨rfl, rfl⟩ | ⟨-, hold⟩
    · cases hverdict with
      | failed _ hfaulty _ => exact hfaulty.mono ht.mono
    · exact (hs.faulty name hold).mono ht.mono
  · rw [hdiagnostics]
    rcases ht.cases_of_outcome? ho with ⟨rfl, rfl⟩ | ⟨-, hold⟩
    · cases hverdict with
      | failed _ _ hfound =>
        obtain ⟨d, hd, hrest⟩ := hfound
        exact ⟨d, List.mem_append_right _ hd, hrest⟩
    · obtain ⟨d, hd, hrest⟩ := hs.reported name hold
      exact ⟨d, List.mem_append_left _ hd, hrest⟩

theorem accounted_of_leads (hlead : Leads h store State.initial s) : Accounted h store s := by
  induction hlead with
  | refl => exact accounted_initial h store
  | settle hlead hc ih =>
    exact accounted_of_settles ih hc (settles_settle (inside_of_leads hlead) _)

end Step

namespace Accounted

/-- A settled class with observations was resolved or failed. -/
theorem failed_or_isResolved (hs : Accounted h store s) {name : String}
    (hsettled : (s.outcome? name).isSome = true) (hobs : store.contains name = true) :
    s.outcome? name = some .failed ∨ s.isResolved name = true := by
  obtain ⟨o, ho⟩ := Option.isSome_iff_exists.mp hsettled
  cases o with
  | resolved slots => exact Or.inr (isResolved_iff_outcome?.mpr ⟨slots, ho⟩)
  | unobserved =>
    rw [(hs.unobserved_iff name _ ho).mp rfl] at hobs
    cases hobs
  | failed => exact Or.inl ho

/-- A failure passes down through observed classes. -/
theorem failed_of_climb (hs : Accounted h store s) {n : Nat} {name above : String}
    (hsettled : (s.outcome? name).isSome = true) (hclimb : h.climb (n + 1) name = some above)
    (hfailed : s.outcome? above = some .failed)
    (hobs : ∀ i ≤ n, ∀ passed, h.climb i name = some passed → store.contains passed = true) :
    s.outcome? name = some .failed := by
  induction n generalizing name with
  | zero =>
    rw [h.climb_one] at hclimb
    refine (hs.failed_or_isResolved hsettled (hobs 0 (Nat.le_refl _) name rfl)).resolve_right ?_
    exact fun hname => hs.spared name above hname hclimb hfailed
  | succ n ih =>
    refine (hs.failed_or_isResolved hsettled (hobs 0 (Nat.zero_le _) name rfl)).resolve_right ?_
    intro hname
    rw [Hierarchy.climb, Option.bind_eq_some_iff] at hclimb
    obtain ⟨parent, hparent, hrest⟩ := hclimb
    have hstep : ∀ i, h.climb (i + 1) name = h.climb i parent := fun i => by
      rw [Hierarchy.climb, hparent, Option.bind_some]
    obtain ⟨passed, hpassed, hinside⟩ := h.contains_below_climb hrest (Nat.succ_pos n)
    obtain rfl : parent = passed := by simpa [Hierarchy.climb] using hpassed
    refine hs.spared name parent hname hparent (ih ?_ hrest fun i hi passed hpassed => ?_)
    · exact hs.supported name parent hname hparent hinside
    · exact hobs (i + 1) (by omega) passed ((hstep i).trans hpassed)

/-- Below an unobserved parent only a class that is its own ancestor fails. -/
theorem isResolved_of_unobserved_parent (hs : Accounted h store s) {name parent : String}
    (hsettled : (s.outcome? name).isSome = true) (hobs : store.contains name = true)
    (hcyclic : h.isCyclic name = false) (hparent : h.parentName? name = some parent)
    (hunobserved : store.contains parent = false) : s.isResolved name = true := by
  have hout : ∀ o, s.outcome? parent = some o → o = .unobserved := fun o ho =>
    (hs.unobserved_iff parent o ho).mpr hunobserved
  refine (hs.failed_or_isResolved hsettled hobs).resolve_left fun hfailed => ?_
  rcases hs.faulty name hfailed with hself | ⟨other, hother, hreason⟩
  · rw [hcyclic] at hself
    cases hself
  · obtain rfl : parent = other := Option.some.inj (hparent.symm.trans hother)
    rcases hreason with ho | hresolved
    · cases hout _ ho
    · obtain ⟨slots, ho⟩ := isResolved_iff_outcome?.mp hresolved
      cases hout _ ho

end Accounted

structure Rejected (h : Hierarchy) (s : State) (name : String) : Prop where
  outcome : s.outcome? name = some .failed
  /-- The merge gave the class no vtable. Nothing is said of one that it came with. -/
  bare : ∀ c, h.get? name = some c → c.slots = none →
    ∀ d ∈ (finish h s).classes, d.name = name → d.slots = none
  undeclared : ∀ p ∈ (finish h s).prototypes.prototypes, p.declaringClass ≠ name
  reported : ∃ d ∈ (finish h s).diagnostics, d.className = name ∧ d.category = .integrity

/-- What a merge says of a class that was resolved with a vtable of its own: it has a slot for each
observation and declares the prototype of every slot. -/
structure Renewed (h : Hierarchy) (store : ObservationStore) (s : State) (name : String)
    (slots : List VtableSlot) : Prop where
  outcome : s.outcome? name = some (.resolved slots)
  shown : ∀ c ∈ (finish h s).classes, c.name = name → c.slots = some slots
  length_eq : ∃ observed, store.get? name = some observed ∧ slots.length = observed.length
  declares : ∀ i slot, slots[i]? = some slot → ∃ p ∈ (finish h s).prototypes.prototypes,
    p.id = slot.id ∧ p.declaringClass = name ∧ p.slotIndex = i ∧
      (s.table.size < 2 ^ 32 → s.table.get? slot.id = some p)

namespace Accounted

theorem rejected (hs : Accounted h store s) {name : String}
    (hfailed : s.outcome? name = some .failed) : Rejected h s name where
  outcome := hfailed
  bare := by
    intro c hc hnone d hd hname
    obtain ⟨e, he, rfl⟩ := List.mem_map.mp hd
    rw [withVtable_name] at hname
    rw [withVtable, hname, hfailed]
    rw [← hname, h.get?_of_mem he, Option.some.injEq] at hc
    rwa [hc]
  undeclared := by
    rintro p hp rfl
    obtain ⟨slots, hslots⟩ := isResolved_iff_outcome?.mp (hs.declared p hp)
    rw [hfailed] at hslots
    cases hslots
  reported := hs.reported name hfailed

theorem renewed (hs : Accounted h store s) {name parent : String} {slots : List VtableSlot}
    (hresolved : s.outcome? name = some (.resolved slots))
    (hparent : h.parentName? name = some parent) (hunobserved : store.contains parent = false) :
    Renewed h store s name slots := by
  have hfresh := hs.fresh name parent slots (State.vtable?_eq_some_iff.mpr hresolved) hparent
    hunobserved
  refine {
    outcome := hresolved
    shown := fun c hc hname => ?_
    length_eq := hfresh.length_eq
    declares := fun i slot hslot => ?_ }
  · obtain ⟨d, hd, rfl⟩ := List.mem_map.mp hc
    rw [withVtable_name] at hname
    rw [withVtable, hname, hresolved]
  · obtain ⟨k, hid, horigin⟩ := hfresh.declared i slot hslot
    obtain ⟨p, hp, heq⟩ := Option.map_eq_some_iff.mp horigin
    obtain ⟨hpid, hclass, hindex⟩ : p.id = slot.id ∧ p.declaringClass = name ∧ p.slotIndex = i := by
      simpa [Prototype.origin] using heq
    refine ⟨p, List.mem_of_getElem? hp, hpid, hclass, hindex, fun hbound => ?_⟩
    have hk := Nat.lt_trans (PrototypeTable.originAt?_lt_size horigin) hbound
    rw [PrototypeTable.get?, hid, ProtoId.index_ofIndex hk, hp]

end Accounted

/-- Whatever names are resolved, an observed class among them fails with a finding of its own
below a failed class, however far, if the classes between are observed. Right below a class
without observations it is resolved with a vtable of its own, unless it is its own ancestor,
whatever failed above. -/
theorem rejected_resolveAll_of_failed_ancestor (h : Hierarchy) (store : ObservationStore)
    {names : List String} {name : String} (hmem : name ∈ names)
    (hobs : store.contains name = true) :
    (∀ n above, h.climb (n + 1) name = some above →
      (resolveAll h store names).outcome? above = some .failed →
      (∀ i < n, ∀ passed ∈ h.climb (i + 1) name, store.contains passed = true) →
      Rejected h (resolveAll h store names) name) ∧
    (∀ parent, h.parentName? name = some parent → store.contains parent = false →
      h.isCyclic name = false →
      ∃ slots, Renewed h store (resolveAll h store names) name slots) := by
  have hs := accounted_of_leads (@leads_resolveAll h store names)
  constructor
  · intro n above hclimb hfailed hbetween
    obtain ⟨passed, hpassed, hinside⟩ := h.contains_below_climb hclimb (Nat.succ_pos n)
    obtain rfl : name = passed := by simpa [Hierarchy.climb] using hpassed
    refine hs.rejected (hs.failed_of_climb (resolveAll_outcome?_isSome hmem hinside) hclimb
      hfailed fun i hi passed hpassed => ?_)
    cases i with
    | zero =>
      obtain rfl : name = passed := by simpa [Hierarchy.climb] using hpassed
      exact hobs
    | succ i => exact hbetween i (by omega) passed hpassed
  · intro parent hparent hunobserved hcyclic
    have hinside := h.contains_of_parentName? hparent
    have hresolved := hs.isResolved_of_unobserved_parent (resolveAll_outcome?_isSome hmem hinside)
      hobs hcyclic hparent hunobserved
    obtain ⟨slots, hslots⟩ := isResolved_iff_outcome?.mp hresolved
    exact ⟨slots, hs.renewed hslots hparent hunobserved⟩

/-- Classes below one that is its own parent: Chain and Link with observations, and Shade with
observations below Veil without. -/
def partedHierarchy : Hierarchy :=
  { nodes :=
      [⟨"Loop", some "Loop", false, none⟩, ⟨"Chain", some "Loop", false, none⟩,
        ⟨"Link", some "Chain", false, none⟩, ⟨"Veil", some "Loop", false, none⟩,
        ⟨"Shade", some "Veil", false, none⟩]
    distinct := by decide }

def partedStore : ObservationStore :=
  ⟨[("Loop", ⟨"a", [.concrete 0 "spin"]⟩), ("Chain", ⟨"a", [.concrete 0 "pull"]⟩),
    ("Link", ⟨"a", [.concrete 0 "bend"]⟩), ("Shade", ⟨"a", [.concrete 0 "dim"]⟩)]⟩

/-- Link fails with Loop, two links above it. Shade has a slot, whose prototype it declares. -/
theorem rejected_resolveAll_of_failed_ancestor_sample :
    Rejected partedHierarchy
        (resolveAll partedHierarchy partedStore (partedHierarchy.nodes.map ClassNode.name)) "Link" ∧
      (run partedHierarchy partedStore).classes.map ClassNode.slots =
        [none, none, none, none, some [⟨⟨0⟩, false, false, none⟩]] ∧
      ∃ slots, Renewed partedHierarchy partedStore
        (resolveAll partedHierarchy partedStore (partedHierarchy.nodes.map ClassNode.name))
          "Shade" slots :=
  ⟨(rejected_resolveAll_of_failed_ancestor partedHierarchy partedStore (by decide)
      (by decide)).1 1 "Loop" (by decide) (by decide) (by decide), by decide,
    (rejected_resolveAll_of_failed_ancestor partedHierarchy partedStore (by decide)
      (by decide)).2 "Veil" (by decide) (by decide) (by decide)⟩

/-- A failure does not reach every observed class below: Loop fails, and Shade, two links below it,
is resolved and declares a prototype, without any finding. -/
theorem resolved_below_failed_ancestor :
    partedHierarchy.climb 2 "Shade" = some "Loop" ∧ partedStore.contains "Shade" = true ∧
      (resolveAll partedHierarchy partedStore
        (partedHierarchy.nodes.map ClassNode.name)).outcome? "Loop" = some .failed ∧
      (resolveAll partedHierarchy partedStore
        (partedHierarchy.nodes.map ClassNode.name)).outcome? "Shade" ≠ some .failed ∧
      (∃ p ∈ (resolveAll partedHierarchy partedStore
        (partedHierarchy.nodes.map ClassNode.name)).table.prototypes,
          p.declaringClass = "Shade") ∧
      ∀ d ∈ (resolveAll partedHierarchy partedStore
        (partedHierarchy.nodes.map ClassNode.name)).diagnostics, d.className ≠ "Shade" := by
  decide

end VtableMerge.Merge
